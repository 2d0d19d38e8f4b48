import ChartFeed.Proofs.Snapshot.Replay

/-!
# Records are written once

* `Vault.WritesOnce` : a step adds a record or none, and changes no other but for the stamp of the one
  it executes.
* `Vault.MakesFreshIds` : every id that a run makes up is a new one.
* `Vault.writeOnce_run` : along such a run, every record stays as it was first stored but for its
  stamp.
-/

namespace ChartFeed.Vault

variable {σ : Type} {v : Vault σ Store} {w : World σ Store} {step : Step} {steps : List Step}

/-! ## One step -/

/-- The number of records that a step adds, told by its answer. -/
def added : Except Stop Outcome → Nat
  | .ok (.saved _) => 1
  | _ => 0

/-- What a step does to the records of a store. -/
structure WritesOnce (v : Vault σ Store) (step : Step) (w : World σ Store) : Prop where
  /-- There is one more record after a save that succeeds, and as many as before after any other
  step. -/
  size : (v.perform step w).2.store.size = w.store.size + added (v.perform step w).1
  /-- The record of a request stands under the id that the save answers. -/
  saved : ∀ fresh r receipt, step = .save fresh r →
    (v.perform step w).1 = .ok (.saved receipt) →
      (v.perform step w).2.store.find? receipt.id = some (record v.cipher fresh r)
  /-- A record that was there stays, but for its stamp, which only an execution that succeeds
  changes. -/
  kept : ∀ id r, w.store.find? id = some r →
    ∃ stamp, (v.perform step w).2.store.find? id = some { r with lastUpdated := stamp } ∧
      (stamp ≠ r.lastUpdated →
        ∃ fresh e, step = .execute fresh id ∧ (v.perform step w).1 = .ok (.executed e))
  /-- After an execution that succeeds, the record has a stamp. -/
  present : ∀ fresh id e, step = .execute fresh id → (v.perform step w).1 = .ok (.executed e) →
    ∃ r, (v.perform step w).2.store.find? id = some r ∧ r.lastUpdated.isSome

theorem added_eq_zero {answer : Except Stop Outcome}
    (h : ∀ receipt, answer ≠ .ok (.saved receipt)) : added answer = 0 := by
  unfold added
  split
  · exact absurd rfl (h _)
  · rfl

theorem writesOnce_of_fresh (hshelf : v.shelf = Store.shelf) (hkeyed : w.store.IsKeyed)
    (hfresh : ∀ receipt, (v.perform step w).1 = .ok (.saved receipt) →
      w.store.find? receipt.id = none) : v.WritesOnce step w := by
  obtain ⟨hsaved, hexecuted, hstore⟩ | ⟨fresh, r, rfl, hanswer, hstore⟩ |
      ⟨fresh, id, s, e, rfl, hfind, hanswer, hstore⟩ := perform_cases hshelf hkeyed step
  · constructor
    · rw [hstore, added_eq_zero hsaved, Nat.add_zero]
    · intro fresh r receipt hstep hanswer
      exact absurd hanswer (hsaved receipt)
    · intro id r hr
      exact ⟨r.lastUpdated, by rw [hstore, hr], fun h => absurd rfl h⟩
    · intro fresh id e hstep hanswer
      exact absurd hanswer (hexecuted e)
  · have hnew : w.store.find? (record v.cipher fresh r).id = none := hfresh _ hanswer
    have hfirst : (record v.cipher fresh r).id ∉ w.store.ids := by
      rw [Store.mem_ids, hnew]
      exact fun h => h rfl
    constructor
    · rw [hstore, hanswer, ← Store.length_ids, ← Store.length_ids, Store.ids_insert, if_neg hfirst,
        List.length_append]
      rfl
    · intro fresh' r' receipt hstep hreceipt
      cases hstep
      rw [hanswer] at hreceipt
      cases hreceipt
      rw [hstore]
      exact Store.find?_insert_self w.store (record v.cipher fresh r)
    · intro id r' hr'
      have hne : id ≠ (record v.cipher fresh r).id := by
        rintro rfl
        rw [hnew] at hr'
        cases hr'
      exact ⟨r'.lastUpdated, by rw [hstore, Store.find?_insert_of_ne _ hne, hr'],
        fun h => absurd rfl h⟩
    · intro fresh' id e hstep
      cases hstep
  · have hid : (s.stamped fresh).id = id := hkeyed id s hfind
    have hold : (s.stamped fresh).id ∈ w.store.ids := by
      rw [Store.mem_ids, hid, hfind]
      exact Option.some_ne_none s
    have hself : (w.store.insert (s.stamped fresh)).find? id = some (s.stamped fresh) := by
      rw [← hid]
      exact Store.find?_insert_self _ _
    constructor
    · rw [hstore, hanswer, ← Store.length_ids, ← Store.length_ids, Store.ids_insert, if_pos hold]
      rfl
    · intro fresh' r' receipt hstep
      cases hstep
    · intro id' r hr
      by_cases hsame : id' = id
      · subst hsame
        obtain rfl : s = r := Option.some.inj (hfind.symm.trans hr)
        refine ⟨some (Instant.stamp fresh.now), ?_, fun _ => ⟨fresh, e, rfl, hanswer⟩⟩
        rw [hstore]
        exact hself
      · have hne : id' ≠ (s.stamped fresh).id := by rwa [hid]
        exact ⟨r.lastUpdated, by rw [hstore, Store.find?_insert_of_ne _ hne, hr],
          fun h => absurd rfl h⟩
    · intro fresh' id' e' hstep _
      cases hstep
      exact ⟨_, by rw [hstore]; exact hself, rfl⟩

/-! ## Runs -/

/-- Every id that a run makes up for a record is one that no record stood under until then. -/
def MakesFreshIds (v : Vault σ Store) : List Step → World σ Store → Prop
  | [], _ => True
  | step :: steps, w =>
    (∀ receipt, (v.perform step w).1 = .ok (.saved receipt) → w.store.find? receipt.id = none) ∧
      v.MakesFreshIds steps (v.perform step w).2

theorem run_append (v : Vault σ Store) (before after : List Step) (w : World σ Store) :
    v.run (before ++ after) w = v.run after (v.run before w) := List.foldl_append

theorem makesFreshIds_append {before after : List Step} :
    v.MakesFreshIds (before ++ after) w ↔
      v.MakesFreshIds before w ∧ v.MakesFreshIds after (v.run before w) := by
  induction before generalizing w with
  | nil => simp [MakesFreshIds, run]
  | cons step before ih =>
    rw [List.cons_append, MakesFreshIds, ih, MakesFreshIds, and_assoc]
    rfl

theorem nodup_ids_run (hshelf : v.shelf = Store.shelf) (hkeyed : w.store.IsKeyed)
    (hnodup : w.store.ids.Nodup) (steps : List Step) : (v.run steps w).store.ids.Nodup := by
  induction steps generalizing w with
  | nil => exact hnodup
  | cons step steps ih =>
    apply ih (isKeyed_perform hshelf hkeyed step)
    obtain h | ⟨_, _, -, h⟩ | ⟨_, _, _, -, -, h⟩ := perform_store hshelf hkeyed step
    · rw [h]
      exact hnodup
    · rw [h]
      exact Store.nodup_ids_insert hnodup _
    · rw [h]
      exact Store.nodup_ids_insert hnodup _

theorem kept_run (hshelf : v.shelf = Store.shelf) (hkeyed : w.store.IsKeyed)
    (hfresh : v.MakesFreshIds steps w) {id : String} {r : Snapshot}
    (hfind : w.store.find? id = some r) :
    ∃ stamp, (v.run steps w).store.find? id = some { r with lastUpdated := stamp } ∧
      (r.lastUpdated.isSome → stamp.isSome) := by
  induction steps generalizing w r with
  | nil => exact ⟨r.lastUpdated, hfind, fun h => h⟩
  | cons step steps ih =>
    obtain ⟨hnew, hrest⟩ := hfresh
    have hstep := writesOnce_of_fresh hshelf hkeyed hnew
    obtain ⟨stamp, hkept, hchanged⟩ := hstep.kept id r hfind
    obtain ⟨stamp', hlast, hpresent⟩ := ih (isKeyed_perform hshelf hkeyed step) hrest hkept
    refine ⟨stamp', hlast, fun hstamped => hpresent ?_⟩
    by_cases hsame : stamp = r.lastUpdated
    · rw [hsame]
      exact hstamped
    · -- the stamp was changed by an execution, which left one
      obtain ⟨fresh, e, hexecute, hanswer⟩ := hchanged hsame
      obtain ⟨r', hr', hsome⟩ := hstep.present fresh id e hexecute hanswer
      obtain rfl : r' = { r with lastUpdated := stamp } :=
        Option.some.inj (hr'.symm.trans hkept)
      exact hsome

/-- **Records are written once, but for their stamp.** At every moment of a run that makes up fresh
ids, every record stands under its own id, and no two under one. Every step adds one record or none
and changes nothing else but the stamp of the record that it executes. Hence a record that stands at
one moment stands at every later one, as it was but for its stamp. -/
theorem writeOnce_run (hshelf : v.shelf = Store.shelf) (hbuilt : w.store.IsBuilt)
    (hfresh : v.MakesFreshIds steps w) :
    (∀ before after, steps = before ++ after →
      (v.run before w).store.IsKeyed ∧ (v.run before w).store.ids.Nodup) ∧
    (∀ before step after, steps = before ++ step :: after → v.WritesOnce step (v.run before w)) ∧
    ∀ before between after, steps = before ++ between ++ after →
      ∀ id r, (v.run before w).store.find? id = some r →
        ∃ stamp, (v.run (before ++ between) w).store.find? id =
            some { r with lastUpdated := stamp } ∧ (r.lastUpdated.isSome → stamp.isSome) := by
  have hkeyed := isKeyed_run hshelf hbuilt.isKeyed
  refine ⟨?_, ?_, ?_⟩
  · rintro before after -
    exact ⟨hkeyed before, nodup_ids_run hshelf hbuilt.isKeyed hbuilt.nodup_ids before⟩
  · rintro before step after rfl
    obtain ⟨-, hstep, -⟩ := makesFreshIds_append.mp hfresh
    exact writesOnce_of_fresh hshelf (hkeyed before) hstep
  · rintro before between after rfl id r hfind
    obtain ⟨hboth, -⟩ := makesFreshIds_append.mp hfresh
    obtain ⟨-, hbetween⟩ := makesFreshIds_append.mp hboth
    rw [run_append]
    exact kept_run hshelf (hkeyed before) hbetween hfind

/-- Saving the chart of deals, drawing it, showing it and drawing one that is not there. -/
def dealRun : List Step :=
  [.save (momentOf "a") dealRequest, .execute (momentOf "") (newId (momentOf "a")),
    .config (newId (momentOf "a")), .execute (momentOf "") "missing"]

def newWorld : World Unit Store := ⟨⟨(), []⟩, .empty⟩

theorem perform_ne_saved (hstep : step.newId? = none) (receipt : Receipt) :
    (v.perform step w).1 ≠ .ok (.saved receipt) := by
  cases step with
  | save fresh r => cases hstep
  | execute fresh id =>
    rw [perform, fst_map]
    cases (v.execute fresh id w).1 <;> (intro h; cases h)
  | config id =>
    rw [perform, fst_map]
    cases (v.config id w).1 <;> (intro h; cases h)

theorem makesFreshIds_dealRun : dealVault.MakesFreshIds dealRun newWorld := by
  refine ⟨fun receipt _ => rfl, ?_, ?_, ?_, trivial⟩
  all_goals
    intro receipt h
    exact absurd h (perform_ne_saved rfl receipt)

theorem save_newWorld :
    dealVault.save (momentOf "a") dealRequest newWorld =
      (.ok ⟨newId (momentOf "a"), 0, .dynamic⟩,
        ⟨⟨(), []⟩, Store.empty.insert (record dealVault.cipher (momentOf "a") dealRequest)⟩) := by
  rw [save_eq rfl, show checkRequest dealRequest = .ok () from rfl,
    checkId_eq_ok.mpr isId_newId_momentOf]
  rfl

theorem writeOnce_dealRun :
    dealVault.shelf = Store.shelf ∧ newWorld.store.IsBuilt ∧
      dealVault.MakesFreshIds dealRun newWorld ∧
      ∃ stamp : Option String, stamp.isSome ∧
        (dealVault.run dealRun newWorld).store.find? (newId (momentOf "a")) =
          some { record dealVault.cipher (momentOf "a") dealRequest with lastUpdated := stamp } := by
  refine ⟨rfl, .empty, makesFreshIds_dealRun, ?_⟩
  obtain ⟨hmoments, hsteps, hlater⟩ := writeOnce_run rfl .empty makesFreshIds_dealRun
  -- the record stands as the request has it, and is drawn
  have hanswer : (dealVault.perform (.save (momentOf "a") dealRequest) newWorld).1 =
      .ok (.saved ⟨newId (momentOf "a"), 0, .dynamic⟩) := by
    rw [perform, fst_map, save_newWorld]
    rfl
  have hstands := (hsteps [] _ _ rfl).saved _ _ _ rfl hanswer
  have hkeyed := (hmoments [.save (momentOf "a") dealRequest] _ rfl).1
  obtain ⟨e, w', hexecute⟩ := execute_dealVault hkeyed ⟨none, hstands⟩
  have hdrawn := hsteps [.save (momentOf "a") dealRequest] _ _ rfl
  have hanswer' : (dealVault.perform (.execute (momentOf "") (newId (momentOf "a")))
      (dealVault.run [.save (momentOf "a") dealRequest] newWorld)).1 = .ok (.executed e) := by
    rw [perform, fst_map, hexecute]
    rfl
  obtain ⟨r, hr, hsome⟩ := hdrawn.present _ _ e rfl hanswer'
  obtain ⟨stamp, hkept, -⟩ := hdrawn.kept _ _ hstands
  have hsame := Option.some.inj (hr.symm.trans hkept)
  have hthere : (dealVault.run ([.save (momentOf "a") dealRequest] ++
      [.execute (momentOf "") (newId (momentOf "a"))]) newWorld).store.find?
        (newId (momentOf "a")) = some r := by
    rw [run_append, run, List.foldl_cons, List.foldl_nil]
    exact hr
  -- and stays so for the rest of the run
  obtain ⟨stamp', hlast, hpresent⟩ := hlater _
    [.config (newId (momentOf "a")), .execute (momentOf "") "missing"] [] rfl _ _ hthere
  rw [hsame] at hlast
  exact ⟨stamp', hpresent hsome, hlast⟩

end ChartFeed.Vault
