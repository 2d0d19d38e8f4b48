import ChartFeed.Proofs.Snapshot.Replay
import ChartFeed.Proofs.Source.Ending

/-!
# Executions, stage by stage

An execution checks the id, looks the record up, opens its credential, asks for the columns if the
record has filters, and then for one page after the other; the first stage that fails ends it.

* `Store.Loads` : a store has a record of an id that can be used.
* `Snapshot.Queried` : the query of a record, with what is asked for it.
* `Vault.Course` : the stages of an execution up to the last one that is reached.
* `Vault.execute_allOrNothing` : an execution comes to what its course ends in, and only a course
  without a failure changes the store.
-/

namespace ChartFeed

open ChartFeed.Filter (Query compile)

variable {σ : Type}

/-! ## Records that can be used -/

namespace Store

variable {s : Store} {r : Snapshot} {id : String} {f : Failure}

/-- A store has a record of an id, in a layout that is known. -/
def Loads (s : Store) (id : String) (r : Snapshot) : Prop :=
  isId id = true ∧ s.find? id = some r ∧ r.schemaVersion ≤ Snapshot.currentVersion

theorem fetch_of_loads (h : s.Loads id r) : s.fetch id = .ok r := fetch_of_find? h.1 h.2.1 h.2.2

theorem fetch_of_not_isId (h : isId id = false) :
    s.fetch id = .error (.invalidRequest ("invalid snapshot id '" ++ id ++ "'")) := by
  unfold fetch checkId
  rw [h]
  rfl

theorem fetch_of_none (hid : isId id = true) (h : s.find? id = none) :
    s.fetch id = .error (.notFound ("query snapshot '" ++ id ++ "'")) := by
  unfold fetch
  rw [checkId_eq_ok.mpr hid, h]
  rfl

theorem fetch_of_newer (hid : isId id = true) (hfind : s.find? id = some r)
    (h : Snapshot.currentVersion < r.schemaVersion) : s.fetch id = .error .internal := by
  unfold fetch
  rw [checkId_eq_ok.mpr hid, hfind]
  exact if_pos h

end Store

/-! ## Rows -/

/-- The query of a record, with what is asked for it: nothing when there are no filters, else the
columns of the table. -/
inductive Snapshot.Queried (s : Snapshot) (token : String) : Option Query → List Exchange → Prop where
  | bare (h : s.filters = []) : Queried s token none []
  | filtered (h : s.filters ≠ []) (schema : Schema) :
    Queried s token (compile s.filters schema.properties) [⟨.schema token s.table, .ok schema⟩]

namespace Vault

section Rows

variable {v : Vault σ Store} {s : Snapshot} {token : String} {d d' : Dialogue σ} {es : List Exchange}

def columns (v : Vault σ Store) (s : Snapshot) (token : String) (d : Dialogue σ) :
    Except Failure Schema :=
  (v.source.answer (.schema token s.table) d.state).1

theorem rows_of_bare (h : s.filters = []) (d : Dialogue σ) :
    v.rows s token d =
      Session.collect v.source ⟨token, s.table, none, v.pageSize⟩ v.pageLimit d := by
  unfold rows query
  rw [bind_apply, h]
  rfl

theorem rows_of_filtered (h : s.filters ≠ []) (d : Dialogue σ) :
    v.rows s token d =
      match v.columns s token d with
      | .error f => (.error (.failed f), d.after v.source (.schema token s.table))
      | .ok schema =>
        Session.collect v.source
          ⟨token, s.table, compile s.filters schema.properties, v.pageSize⟩ v.pageLimit
          (d.after v.source (.schema token s.table)) := by
  have hask : (Session.ask v.source (.schema token s.table) : Session σ Schema) d =
      ((v.columns s token d).mapError .failed, d.after v.source (.schema token s.table)) :=
    Session.ask_eq v.source (.schema token s.table) d
  have hfilters : s.filters.isEmpty = false := by
    cases hcase : s.filters with
    | nil => exact absurd hcase h
    | cons g gs => rfl
  unfold rows query
  rw [bind_apply, hfilters]
  simp only [Bool.false_eq_true, if_false]
  rw [bind_apply, hask]
  cases v.columns s token d <;> rfl

theorem rows_of_ends {query : Option Query} {asked : List Exchange}
    {result : Except Stop (List Json)} (hquery : s.Queried token query asked)
    (hend : Session.Sweep.Ends ⟨token, s.table, query, v.pageSize⟩ v.pageLimit none es result)
    (h : Exchanged v.source d (asked ++ es) d') : v.rows s token d = (result, d') := by
  cases hquery with
  | bare hfilters =>
    rw [rows_of_bare hfilters]
    exact Session.collect_eq_iff.mpr ⟨es, hend, h⟩
  | filtered hfilters schema =>
    obtain ⟨hcolumns, h⟩ := Exchanged.cons_iff.mp h
    rw [rows_of_filtered hfilters, show v.columns s token d = .ok schema from hcolumns]
    exact Session.collect_eq_iff.mpr ⟨es, hend, h⟩

end Rows

/-! ## Courses -/

/-- The stages of an execution in their order, up to the first that fails or to the last page: what
is asked on the way, and what comes of it. -/
inductive Course (v : Vault σ Store) (store : Store) (id : String) :
    List Exchange → Except Stop (Snapshot × List Json) → Prop where
  /-- No record can be kept under the id. -/
  | invalid (h : isId id = false) :
    Course v store id []
      (.error (.failed (.invalidRequest ("invalid snapshot id '" ++ id ++ "'"))))
  /-- There is a record, of a layout that is not known. -/
  | newer (s : Snapshot) (hid : isId id = true) (hfind : store.find? id = some s)
      (h : Snapshot.currentVersion < s.schemaVersion) :
    Course v store id [] (.error (.failed .internal))
  /-- There is no record. -/
  | missing (hid : isId id = true) (h : store.find? id = none) :
    Course v store id [] (.error (.failed (.notFound ("query snapshot '" ++ id ++ "'"))))
  /-- The credential does not decrypt. -/
  | closed (s : Snapshot) (fault : CredentialFault) (hs : store.Loads id s)
      (h : Credential.Cipher.decrypt v.cipher s.credential = .error fault) :
    Course v store id [] (.error (.failed (.credential fault)))
  /-- The columns are asked for, and the source fails. -/
  | unknownColumns (s : Snapshot) (token : String) (f : Failure) (hs : store.Loads id s)
      (htoken : Credential.Cipher.decrypt v.cipher s.credential = .ok token)
      (hfilters : s.filters ≠ []) :
    Course v store id [⟨.schema token s.table, .error f⟩] (.error (.failed f))
  /-- The pages are asked for, up to the first that fails or to the last. -/
  | swept (s : Snapshot) (token : String) (query : Option Query) (asked es : List Exchange)
      (result : Except Stop (List Json)) (hs : store.Loads id s)
      (htoken : Credential.Cipher.decrypt v.cipher s.credential = .ok token)
      (hquery : s.Queried token query asked)
      (hend : Session.Sweep.Ends ⟨token, s.table, query, v.pageSize⟩ v.pageLimit none es result) :
    Course v store id (asked ++ es) (result.map (s, ·))

/-- What an execution makes of the end of its course: a failure leaves the store as it is, and with
all rows there the chart is drawn and the record stamped. -/
def concluded (fresh : Fresh) (store : Store) (d : Dialogue σ) :
    Except Stop (Snapshot × List Json) → Except Stop Execution × World σ Store
  | .error stop => (.error stop, ⟨d, store⟩)
  | .ok (s, rows) => (.ok (s.drawn rows), ⟨d, store.insert (s.stamped fresh)⟩)

section Executions

variable {v : Vault σ Store} {w : World σ Store} {fresh : Fresh} {id : String} {d' : Dialogue σ}
  {es : List Exchange} {outcome : Except Stop (Snapshot × List Json)}

theorem execute_of_course (hshelf : v.shelf = Store.shelf) (hkeyed : w.store.IsKeyed)
    (hcourse : v.Course w.store id es outcome) (h : Exchanged v.source w.dialogue es d') :
    v.execute fresh id w = concluded fresh w.store d' outcome := by
  rw [execute_eq hshelf hkeyed]
  cases hcourse with
  | invalid hid =>
    obtain rfl := Exchanged.nil_iff.mp h
    rw [Store.fetch_of_not_isId hid]
    rfl
  | newer s hid hfind hversion =>
    obtain rfl := Exchanged.nil_iff.mp h
    rw [Store.fetch_of_newer hid hfind hversion]
    rfl
  | missing hid hfind =>
    obtain rfl := Exchanged.nil_iff.mp h
    rw [Store.fetch_of_none hid hfind]
    rfl
  | closed s fault hs hfault =>
    obtain rfl := Exchanged.nil_iff.mp h
    rw [Store.fetch_of_loads hs]
    dsimp only
    rw [hfault]
    rfl
  | unknownColumns s token f hs htoken hfilters =>
    obtain ⟨hcolumns, h⟩ := Exchanged.cons_iff.mp h
    obtain rfl := Exchanged.nil_iff.mp h
    rw [Store.fetch_of_loads hs]
    dsimp only
    rw [htoken]
    dsimp only
    rw [rows_of_filtered hfilters, show v.columns s token w.dialogue = .error f from hcolumns]
    rfl
  | swept s token query asked es result hs htoken hquery hend =>
    rw [Store.fetch_of_loads hs]
    dsimp only
    rw [htoken]
    dsimp only
    rw [rows_of_ends hquery hend h]
    cases result <;> rfl

theorem exists_course_of_loads {s : Snapshot} (hs : w.store.Loads id s) :
    ∃ es outcome d', v.Course w.store id es outcome ∧ Exchanged v.source w.dialogue es d' := by
  cases htoken : Credential.Cipher.decrypt v.cipher s.credential with
  | error fault => exact ⟨_, _, _, .closed s fault hs htoken, .nil _⟩
  | ok token =>
    -- under a query that is known, the collection comes to some end
    have hswept : ∀ query asked d, s.Queried token query asked →
        Exchanged v.source w.dialogue asked d →
        ∃ es outcome d', v.Course w.store id es outcome ∧
          Exchanged v.source w.dialogue es d' := by
      intro query asked d hquery hasked
      obtain ⟨es, hend, hes⟩ := Session.collect_eq_iff.mp
        (Eq.refl (Session.collect v.source ⟨token, s.table, query, v.pageSize⟩ v.pageLimit d))
      exact ⟨_, _, _, .swept s token query asked es _ hs htoken hquery hend, hasked.append hes⟩
    by_cases hfilters : s.filters = []
    · exact hswept none [] _ (.bare hfilters) (.nil _)
    · cases hcolumns : v.columns s token w.dialogue with
      | error f =>
        exact ⟨_, _, _, .unknownColumns s token f hs htoken hfilters, .of_answer hcolumns⟩
      | ok schema => exact hswept _ _ _ (.filtered hfilters schema) (.of_answer hcolumns)

theorem exists_course (v : Vault σ Store) (w : World σ Store) (id : String) :
    ∃ es outcome d', v.Course w.store id es outcome ∧ Exchanged v.source w.dialogue es d' := by
  cases hid : isId id with
  | false => exact ⟨_, _, _, .invalid hid, .nil _⟩
  | true =>
    cases hfind : w.store.find? id with
    | none => exact ⟨_, _, _, .missing hid hfind, .nil _⟩
    | some s =>
      rcases Nat.lt_or_ge Snapshot.currentVersion s.schemaVersion with hnewer | hknown
      · exact ⟨_, _, _, .newer s hid hfind hnewer, .nil _⟩
      · exact exists_course_of_loads ⟨hid, hfind, hknown⟩

theorem execute_eq_iff (hshelf : v.shelf = Store.shelf) (hkeyed : w.store.IsKeyed)
    {answer : Except Stop Execution × World σ Store} :
    v.execute fresh id w = answer ↔
      ∃ es outcome d', v.Course w.store id es outcome ∧ Exchanged v.source w.dialogue es d' ∧
        answer = concluded fresh w.store d' outcome := by
  constructor
  · rintro rfl
    obtain ⟨es, outcome, d', hcourse, hes⟩ := exists_course v w id
    exact ⟨es, outcome, d', hcourse, hes, execute_of_course hshelf hkeyed hcourse hes⟩
  · rintro ⟨es, outcome, d', hcourse, hes, rfl⟩
    exact execute_of_course hshelf hkeyed hcourse hes

/-- **An execution is all or nothing.** It fails exactly when its course ends in a failure: with that
failure, the calls made being those up to the one that failed, and the store as it was. It succeeds
exactly when every stage before the write does: with the chart of all rows, and the record stamped. -/
theorem execute_allOrNothing (hshelf : v.shelf = Store.shelf) (hbuilt : w.store.IsBuilt)
    (fresh : Fresh) (id : String) :
    (∀ stop w', v.execute fresh id w = (.error stop, w') ↔
      w'.store = w.store ∧ ∃ es, v.Course w.store id es (.error stop) ∧
        Exchanged v.source w.dialogue es w'.dialogue) ∧
    ∀ e w', v.execute fresh id w = (.ok e, w') ↔
      ∃ es s rows, v.Course w.store id es (.ok (s, rows)) ∧
        Exchanged v.source w.dialogue es w'.dialogue ∧ e = s.drawn rows ∧
        w'.store = w.store.insert (s.stamped fresh) := by
  refine ⟨fun stop w' => ?_, fun e w' => ?_⟩
  · rw [execute_eq_iff hshelf hbuilt.isKeyed]
    constructor
    · rintro ⟨es, _ | ⟨s, rows⟩, d', hcourse, hes, h⟩
      · cases h
        exact ⟨rfl, es, hcourse, hes⟩
      · cases h
    · rintro ⟨hstore, es, hcourse, hes⟩
      refine ⟨es, _, _, hcourse, hes, ?_⟩
      rw [concluded, ← hstore]
  · rw [execute_eq_iff hshelf hbuilt.isKeyed]
    constructor
    · rintro ⟨es, _ | ⟨s, rows⟩, d', hcourse, hes, h⟩
      · cases h
      · cases h
        exact ⟨es, s, rows, hcourse, hes, rfl, rfl⟩
    · rintro ⟨es, s, rows, hcourse, hes, rfl, hstore⟩
      refine ⟨es, _, _, hcourse, hes, ?_⟩
      rw [concluded, ← hstore]

end Executions

def firstDeals : Page := ⟨[.object [("id", .text "a")]], true, some "second"⟩

def dealSchema : Schema := ⟨"deals", "Deals", [⟨"Stage", .status, none, none⟩]⟩

/-- The table of deals, of which only the first page is served. -/
def brokenSource : Source Unit where
  answer
    | .page _ _ _ _ none, s => (.ok firstDeals, s)
    | .page _ _ _ _ (some _), s => (.error (.remote 429 "rate limited"), s)
    | .schema .., s => (.ok dealSchema, s)
    | .tables _, s => (.ok [], s)

def brokenVault : Vault Unit Store := ⟨.ofSecret "key", Store.shelf, brokenSource, 100, 10⟩

def dealRecord : Snapshot := record brokenVault.cipher (momentOf "a") dealRequest

/-- The moment after the chart was put into a new store. -/
def dealWorld : World Unit Store := ⟨⟨(), []⟩, (Store.put dealRecord .empty).2⟩

theorem loads_dealWorld : dealWorld.store.Loads (newId (momentOf "a")) dealRecord := by
  have hcheck : checkId dealRecord.id = .ok () := checkId_eq_ok.mpr isId_newId_momentOf
  refine ⟨isId_newId_momentOf, ?_, Nat.le_refl 1⟩
  unfold dealWorld Store.put
  rw [hcheck]
  exact Store.find?_insert_self .empty _

def dealSweep : Session.Sweep :=
  ⟨"ntn_token", "deals", compile dealRecord.filters dealSchema.properties, 100⟩

theorem execute_allOrNothing_broken :
    brokenVault.shelf = Store.shelf ∧ dealWorld.store.IsBuilt ∧
    ∃ w', brokenVault.execute (momentOf "") (newId (momentOf "a")) dealWorld =
        (.error (.failed (.remote 429 "rate limited")), w') ∧
      w'.store = dealWorld.store ∧
      w'.dialogue.calls =
        [.schema "ntn_token" "deals", dealSweep.call none, dealSweep.call (some "second")] := by
  have hshelf : brokenVault.shelf = Store.shelf := rfl
  have hbuilt : dealWorld.store.IsBuilt := .put .empty _
  have htoken := decrypt_record (show brokenVault.cipher = .ofSecret "key" from rfl)
    (momentOf "a") dealRequest
  have hfilters : dealRecord.filters ≠ [] := by decide
  have hopen : Page.AreOpen [firstDeals] := by
    intro page hpage
    rw [List.mem_singleton.mp hpage]
    rfl
  have hcourse := Course.swept dealRecord "ntn_token" _ _ _ _ loads_dealWorld htoken
    (.filtered hfilters dealSchema)
    (.failed [firstDeals] (.remote 429 "rate limited") hopen (by decide))
  -- the columns and the first page are served, and the page at the cursor is not
  obtain ⟨d', hasked, hcalls⟩ : ∃ d', Exchanged brokenSource dealWorld.dialogue
      [⟨.schema "ntn_token" "deals", .ok dealSchema⟩, ⟨dealSweep.call none, .ok firstDeals⟩,
        ⟨dealSweep.call (some "second"), .error (.remote 429 "rate limited")⟩] d' ∧
      d'.calls =
        [.schema "ntn_token" "deals", dealSweep.call none, dealSweep.call (some "second")] :=
    ⟨_, Exchanged.cons_iff.mpr ⟨rfl, Exchanged.cons_iff.mpr ⟨rfl, .of_answer rfl⟩⟩, rfl⟩
  have hfails := ((execute_allOrNothing hshelf hbuilt (momentOf "") _).1 _
    ⟨d', dealWorld.store⟩).mpr ⟨rfl, _, hcourse, hasked⟩
  exact ⟨hshelf, hbuilt, _, hfails, rfl, hcalls⟩

end Vault

end ChartFeed
