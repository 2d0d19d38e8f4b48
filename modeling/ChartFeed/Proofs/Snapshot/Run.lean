import ChartFeed.Proofs.Snapshot.Store
import ChartFeed.Proofs.Source.Sweep
import ChartFeed.Snapshot.Vault

/-!
# Runs of a vault in memory

* `save_eq`, `load_eq`, `execute_eq` : what each operation does, over a store in memory.
* `Step`, `Vault.perform`, `Vault.run` : operations one after the other, whatever comes of them.
* `perform_cases`, `perform_store` : all that a step can do to the store.
* `holds_run` : a saved record stays as it is but for its stamp.
-/

namespace ChartFeed

variable {σ : Type}

namespace Snapshot

/-- The record of a chart that was drawn at a moment. -/
def stamped (fresh : Fresh) (s : Snapshot) : Snapshot :=
  { s with lastUpdated := some (Instant.stamp fresh.now) }

/-- The chart of a record, drawn of rows. -/
def drawn (s : Snapshot) (rows : List Json) : Execution where
  id := s.id
  points := Chart.aggregate s.axes rows
  chartType := s.chartType
  function := s.function
  title := s.title
  isDemo := s.isDemo
  timestamp := s.timestamp
  createdAt := s.createdAt
  rows

end Snapshot

namespace Vault

/-! ## The operations -/

section Operations

variable {v : Vault σ Store} {w : World σ Store} {fresh : Fresh} {r : SaveRequest} {id : String}

theorem keep_eq (nonce : String) (s : Snapshot) (w : World σ Store) :
    Act.keep Store.shelf nonce s w = match checkId s.id with
      | .error f => (.error (.failed f), w)
      | .ok () => (.ok (), { w with store := w.store.insert s }) := by
  have hput : Store.shelf.put nonce s w.store = Store.put s w.store := rfl
  unfold Act.keep
  rw [hput, Store.put]
  cases checkId s.id <;> rfl

theorem check_bind {α β : Type} (x : Except Failure α) (f : α → Act σ Store β)
    (w : World σ Store) :
    (Act.check x >>= f) w = match x with
      | .error e => (.error (.failed e), w)
      | .ok a => f a w := by
  rw [bind_apply]
  cases x <;> rfl

theorem save_eq (hshelf : v.shelf = Store.shelf) (fresh : Fresh) (r : SaveRequest)
    (w : World σ Store) :
    v.save fresh r w = match checkRequest r with
      | .error f => (.error (.failed f), w)
      | .ok () => match checkId (newId fresh) with
        | .error f => (.error (.failed f), w)
        | .ok () => (.ok ⟨newId fresh, fresh.now, .dynamic⟩,
            { w with store := w.store.insert (record v.cipher fresh r) }) := by
  unfold save
  rw [check_bind]
  cases checkRequest r with
  | error f => rfl
  | ok _ =>
    dsimp only
    rw [bind_apply, hshelf, keep_eq, show (record v.cipher fresh r).id = newId fresh from rfl]
    cases checkId (newId fresh) <;> rfl

theorem save_cases (hshelf : v.shelf = Store.shelf) (fresh : Fresh) (r : SaveRequest)
    (w : World σ Store) :
    (∃ f, v.save fresh r w = (.error (.failed f), w)) ∨
      v.save fresh r w = (.ok ⟨newId fresh, fresh.now, .dynamic⟩,
        { w with store := w.store.insert (record v.cipher fresh r) }) := by
  rw [save_eq hshelf]
  cases checkRequest r with
  | error f => exact .inl ⟨f, rfl⟩
  | ok _ =>
    dsimp only
    cases checkId (newId fresh) with
    | error f => exact .inl ⟨f, rfl⟩
    | ok _ => exact .inr rfl

theorem load_eq (hshelf : v.shelf = Store.shelf) (id : String) (w : World σ Store) :
    v.load id w = ((w.store.fetch id).mapError .failed, w) := by
  unfold load Store.fetch
  rw [check_bind]
  cases hid : checkId id with
  | error f => rfl
  | ok _ =>
    dsimp only
    rw [bind_apply, hshelf]
    unfold Act.lookup Store.shelf Store.get
    dsimp only
    rw [hid]
    cases w.store.find? id with
    | none => rfl
    | some s =>
      dsimp only
      cases checkVersion s <;> rfl

theorem consult_bind {α β : Type} (session : Session σ α) (f : α → Act σ Store β)
    (w : World σ Store) :
    (Act.consult session >>= f) w = match session w.dialogue with
      | (.error stop, d) => (.error stop, ⟨d, w.store⟩)
      | (.ok a, d) => f a ⟨d, w.store⟩ := by
  rw [bind_apply]
  unfold Act.consult
  rcases session w.dialogue with ⟨_ | a, d⟩ <;> rfl

/-- An execution fetches the record, opens its credential, asks for the rows, and only then writes:
the record with a new stamp, which a store in memory takes. -/
theorem execute_eq (hshelf : v.shelf = Store.shelf) (hkeyed : w.store.IsKeyed) (fresh : Fresh)
    (id : String) :
    v.execute fresh id w = match w.store.fetch id with
      | .error f => (.error (.failed f), w)
      | .ok s => match Credential.Cipher.decrypt v.cipher s.credential with
        | .error fault => (.error (.failed (.credential fault)), w)
        | .ok token => match v.rows s token w.dialogue with
          | (.error stop, d) => (.error stop, ⟨d, w.store⟩)
          | (.ok rows, d) => (.ok (s.drawn rows), ⟨d, w.store.insert (s.stamped fresh)⟩) := by
  unfold execute
  rw [bind_apply, load_eq hshelf]
  cases hfetch : w.store.fetch id with
  | error f => rfl
  | ok s =>
    obtain ⟨hid, hfind⟩ := Store.fetch_eq_ok hfetch
    dsimp only [Except.mapError]
    rw [check_bind]
    cases Credential.Cipher.decrypt v.cipher s.credential with
    | error fault => rfl
    | ok token =>
      dsimp only [Except.mapError]
      rw [consult_bind]
      rcases v.rows s token w.dialogue with ⟨stop | rows, d⟩
      · rfl
      · -- the record is written under the id that it was found under
        have hown : checkId s.id = .ok () := by
          rw [hkeyed id s hfind]
          exact checkId_eq_ok.mpr hid
        dsimp only
        rw [bind_apply, hshelf, keep_eq]
        dsimp only
        rw [hown]
        rfl

theorem execute_of_stages {s : Snapshot} {token : String} {rows : List Json} {d : Dialogue σ}
    (hshelf : v.shelf = Store.shelf) (hkeyed : w.store.IsKeyed)
    (hfetch : w.store.fetch id = .ok s)
    (hdecrypt : Credential.Cipher.decrypt v.cipher s.credential = .ok token)
    (hrows : v.rows s token w.dialogue = (.ok rows, d)) :
    v.execute fresh id w = (.ok (s.drawn rows), ⟨d, w.store.insert (s.stamped fresh)⟩) := by
  rw [execute_eq hshelf hkeyed, hfetch]
  dsimp only
  rw [hdecrypt]
  dsimp only
  rw [hrows]

theorem execute_cases (hshelf : v.shelf = Store.shelf) (hkeyed : w.store.IsKeyed) (fresh : Fresh)
    (id : String) :
    (∃ stop d, v.execute fresh id w = (.error stop, ⟨d, w.store⟩)) ∨
      ∃ s token rows d, w.store.fetch id = .ok s ∧
        Credential.Cipher.decrypt v.cipher s.credential = .ok token ∧
        v.rows s token w.dialogue = (.ok rows, d) ∧
        v.execute fresh id w = (.ok (s.drawn rows), ⟨d, w.store.insert (s.stamped fresh)⟩) := by
  cases hfetch : w.store.fetch id with
  | error f =>
    refine .inl ⟨.failed f, w.dialogue, ?_⟩
    rw [execute_eq hshelf hkeyed, hfetch]
  | ok s =>
    cases hdecrypt : Credential.Cipher.decrypt v.cipher s.credential with
    | error fault =>
      refine .inl ⟨.failed (.credential fault), w.dialogue, ?_⟩
      rw [execute_eq hshelf hkeyed, hfetch]
      dsimp only
      rw [hdecrypt]
    | ok token =>
      rcases hrows : v.rows s token w.dialogue with ⟨stop | rows, d⟩
      · refine .inl ⟨stop, d, ?_⟩
        rw [execute_eq hshelf hkeyed, hfetch]
        dsimp only
        rw [hdecrypt]
        dsimp only
        rw [hrows]
      · exact .inr ⟨s, token, rows, d, rfl, hdecrypt, hrows,
          execute_of_stages hshelf hkeyed hfetch hdecrypt hrows⟩

end Operations

/-! ## Runs -/

/-- An operation of the vault. -/
inductive Step where
  | save (fresh : Fresh) (r : SaveRequest)
  | execute (fresh : Fresh) (id : String)
  | config (id : String)

def Step.newId? : Step → Option String
  | .save fresh _ => some (newId fresh)
  | .execute .. | .config _ => none

/-- What a step answers. -/
inductive Outcome where
  | saved (receipt : Receipt)
  | executed (execution : Execution)
  | shown (config : Json)

def perform (v : Vault σ Store) : Step → Act σ Store Outcome
  | .save fresh r => .saved <$> v.save fresh r
  | .execute fresh id => .executed <$> v.execute fresh id
  | .config id => .shown <$> v.config id

/-- The world after steps, whatever each of them answers. -/
def run (v : Vault σ Store) (steps : List Step) (w : World σ Store) : World σ Store :=
  steps.foldl (fun w step => (v.perform step w).2) w

variable {v : Vault σ Store} {w : World σ Store} {step : Step} {r : Snapshot}

theorem snd_map {α β : Type} (f : α → β) (x : Act σ Store α) (w : World σ Store) :
    ((f <$> x) w).2 = (x w).2 := by
  rw [map_eq_pure_bind, bind_apply]
  rcases x w with ⟨_ | a, w⟩ <;> rfl

theorem fst_map {α β : Type} (f : α → β) (x : Act σ Store α) (w : World σ Store) :
    ((f <$> x) w).1 = (x w).1.map f := by
  rw [map_eq_pure_bind, bind_apply]
  rcases x w with ⟨_ | a, w⟩ <;> rfl

/-- **A step saves the record of a request, or stamps the record that it executes, or does neither
and leaves the store as it is.** -/
theorem perform_cases (hshelf : v.shelf = Store.shelf) (hkeyed : w.store.IsKeyed) (step : Step) :
    ((∀ receipt, (v.perform step w).1 ≠ .ok (.saved receipt)) ∧
        (∀ e, (v.perform step w).1 ≠ .ok (.executed e)) ∧
        (v.perform step w).2.store = w.store) ∨
      (∃ fresh r, step = .save fresh r ∧
        (v.perform step w).1 = .ok (.saved ⟨newId fresh, fresh.now, .dynamic⟩) ∧
        (v.perform step w).2.store = w.store.insert (record v.cipher fresh r)) ∨
      ∃ fresh id s e, step = .execute fresh id ∧ w.store.find? id = some s ∧
        (v.perform step w).1 = .ok (.executed e) ∧
        (v.perform step w).2.store = w.store.insert (s.stamped fresh) := by
  cases step with
  | save fresh r =>
    rw [perform, fst_map, snd_map]
    obtain ⟨f, hsave⟩ | hsave := save_cases hshelf fresh r w
    · rw [hsave]
      exact .inl ⟨nofun, nofun, rfl⟩
    · rw [hsave]
      exact .inr (.inl ⟨fresh, r, rfl, rfl, rfl⟩)
  | execute fresh id =>
    rw [perform, fst_map, snd_map]
    obtain ⟨stop, d, hexecute⟩ | ⟨s, token, rows, d, hfetch, -, -, hexecute⟩ :=
      execute_cases hshelf hkeyed fresh id
    · rw [hexecute]
      exact .inl ⟨nofun, nofun, rfl⟩
    · rw [hexecute]
      exact .inr (.inr ⟨fresh, id, s, _, rfl, (Store.fetch_eq_ok hfetch).2, rfl, rfl⟩)
  | config id =>
    rw [perform, fst_map, snd_map, config, bind_apply, load_eq hshelf]
    cases w.store.fetch id <;> exact .inl ⟨nofun, nofun, rfl⟩

theorem perform_store (hshelf : v.shelf = Store.shelf) (hkeyed : w.store.IsKeyed) (step : Step) :
    (v.perform step w).2.store = w.store ∨
      (∃ fresh r, step = .save fresh r ∧
        (v.perform step w).2.store = w.store.insert (record v.cipher fresh r)) ∨
      ∃ fresh id s, step = .execute fresh id ∧ w.store.find? id = some s ∧
        (v.perform step w).2.store = w.store.insert (s.stamped fresh) := by
  obtain ⟨-, -, h⟩ | ⟨fresh, r, hstep, -, h⟩ | ⟨fresh, id, s, _, hstep, hfind, -, h⟩ :=
    perform_cases hshelf hkeyed step
  · exact .inl h
  · exact .inr (.inl ⟨fresh, r, hstep, h⟩)
  · exact .inr (.inr ⟨fresh, id, s, hstep, hfind, h⟩)

theorem isKeyed_perform (hshelf : v.shelf = Store.shelf) (hkeyed : w.store.IsKeyed) (step : Step) :
    (v.perform step w).2.store.IsKeyed := by
  obtain h | ⟨_, _, -, h⟩ | ⟨_, _, _, -, -, h⟩ := perform_store hshelf hkeyed step
  · rw [h]
    exact hkeyed
  · rw [h]
    exact hkeyed.insert _
  · rw [h]
    exact hkeyed.insert _

theorem holds_perform (hshelf : v.shelf = Store.shelf) (hkeyed : w.store.IsKeyed)
    (hholds : w.store.Holds r) (hnew : step.newId? ≠ some r.id) :
    (v.perform step w).2.store.Holds r := by
  obtain h | ⟨fresh, request, rfl, h⟩ | ⟨fresh, id, s, -, hfind, h⟩ :=
    perform_store hshelf hkeyed step
  · rw [h]
    exact hholds
  · rw [h]
    exact hholds.insert_of_ne fun hid => hnew (congrArg some hid.symm)
  · rw [h]
    by_cases hid : r.id = s.id
    · -- the record executed is the one held, found under the same id
      obtain ⟨stamp, hstands⟩ := hholds
      have hs : some s = some { r with lastUpdated := stamp } := by
        rw [← hstands, hid, hkeyed id s hfind, hfind]
      cases hs
      exact ⟨some (Instant.stamp fresh.now), Store.find?_insert_self w.store _⟩
    · exact hholds.insert_of_ne hid

theorem isKeyed_run (hshelf : v.shelf = Store.shelf) (hkeyed : w.store.IsKeyed)
    (steps : List Step) : (v.run steps w).store.IsKeyed := by
  induction steps generalizing w with
  | nil => exact hkeyed
  | cons step steps ih => exact ih (isKeyed_perform hshelf hkeyed step)

/-- **A record stays as it is but for its stamp** while no step makes up its id. -/
theorem holds_run (hshelf : v.shelf = Store.shelf) (hkeyed : w.store.IsKeyed)
    (hholds : w.store.Holds r) {steps : List Step}
    (hnew : ∀ step ∈ steps, step.newId? ≠ some r.id) : (v.run steps w).store.Holds r := by
  induction steps generalizing w with
  | nil => exact hholds
  | cons step steps ih =>
    refine ih (isKeyed_perform hshelf hkeyed step) ?_ fun s hs => hnew s (List.mem_cons_of_mem step hs)
    exact holds_perform hshelf hkeyed hholds (hnew step List.mem_cons_self)

theorem holds_of_save (hshelf : v.shelf = Store.shelf) (hkeyed : w.store.IsKeyed) {fresh : Fresh}
    {request : SaveRequest} {receipt : Receipt} {w₁ : World σ Store} {steps : List Step}
    (hsave : v.save fresh request w = (.ok receipt, w₁))
    (hnew : ∀ step ∈ steps, step.newId? ≠ some receipt.id) :
    receipt.id = newId fresh ∧ (v.run steps w₁).store.IsKeyed ∧
      (v.run steps w₁).store.Holds (record v.cipher fresh request) := by
  obtain ⟨f, hfailed⟩ | hsaved := save_cases hshelf fresh request w
  · rw [hfailed] at hsave
    cases hsave
  · rw [hsaved] at hsave
    cases hsave
    have hkeyed₁ := hkeyed.insert (record v.cipher fresh request)
    exact ⟨rfl, isKeyed_run hshelf hkeyed₁ steps,
      holds_run hshelf hkeyed₁ (Store.holds_insert_self w.store _) hnew⟩

end Vault

end ChartFeed
