import ChartFeed.Proofs.Snapshot.Files

/-!
# One answer from every store

Records kept in memory and records kept in files answer the same calls in the same way.

* `StoreCall`, `StoreAnswer` : a call to a store and what it answers, `Shelf.answers` the answers to
  calls one after the other.
* `StoreCall.due` : the answer that a call should get, given the calls before it.
* `Shelf.Tracks` : a store whose states stand for the calls so far answers what is due.
* `answers_eq_due` : both stores do.
-/

namespace ChartFeed

open ChartFeed.Filter (Group Condition Value)

/-- A call to a store. Every writing is given a text for the name beside the place of the record. -/
inductive StoreCall where
  | put (nonce : String) (r : Snapshot)
  | get (id : String)

inductive StoreAnswer where
  | put (result : Except Failure Unit)
  | get (result : Except Failure (Option Snapshot))

namespace Shelf

variable {τ : Type}

/-- The answer to a call and the store after it. -/
def perform (shelf : Shelf τ) : StoreCall → τ → StoreAnswer × τ
  | .put nonce r, t => (.put (shelf.put nonce r t).1, (shelf.put nonce r t).2)
  | .get id, t => (.get (shelf.get id t), t)

def answers (shelf : Shelf τ) : List StoreCall → τ → List StoreAnswer
  | [], _ => []
  | c :: calls, t => (shelf.perform c t).1 :: shelf.answers calls (shelf.perform c t).2

end Shelf

namespace StoreCall

/-- The record that a call keeps under an id. -/
def kept? (id : String) : StoreCall → Option Snapshot
  | .put _ r => if isId r.id = true ∧ id = r.id then some r else none
  | .get _ => none

/-- The record that the last of the calls to keep one under an id has kept there. -/
def lastKept? (id : String) (calls : List StoreCall) : Option Snapshot :=
  calls.reverse.findSome? (kept? id)

/-- What a call should be answered after other calls: an id of other characters is refused, and a
record is given back as it was put last, unless its layout is too new. -/
def due (before : List StoreCall) : StoreCall → StoreAnswer
  | .put _ r =>
    .put (if isId r.id then .ok ()
      else .error (.invalidRequest ("invalid snapshot id '" ++ r.id ++ "'")))
  | .get id =>
    .get (if isId id then
      match lastKept? id before with
      | none => .ok none
      | some r => if Snapshot.currentVersion < r.schemaVersion then .error .internal else .ok (some r)
      else .error (.invalidRequest ("invalid snapshot id '" ++ id ++ "'")))

/-- The call is within the bounds of a file system and of the JSON library: with at most 213 bytes of
id and 32 of the text beside it, names stay within 255 bytes, and the text of a record, all whose
numbers are finite, is read as the value it was written from. -/
def Fits : StoreCall → Prop
  | .put nonce r =>
    r.id.utf8ByteSize ≤ 213 ∧ nonce.utf8ByteSize ≤ 32 ∧ r.IsStorable ∧ r.toJson.ReadsBack
  | .get id => id.utf8ByteSize ≤ 213

theorem lastKept?_append (id : String) (before : List StoreCall) (c : StoreCall) :
    lastKept? id (before ++ [c]) = (c.kept? id).or (lastKept? id before) := by
  simp only [lastKept?, List.reverse_append, List.reverse_singleton, List.singleton_append,
    List.findSome?_cons]
  cases c.kept? id <;> rfl

variable (id : String) (before : List StoreCall) {nonce : String} {r : Snapshot}

theorem lastKept?_get (other : String) :
    lastKept? id (before ++ [.get other]) = lastKept? id before := by
  rw [lastKept?_append]
  rfl

theorem lastKept?_refused (h : isId r.id = false) :
    lastKept? id (before ++ [.put nonce r]) = lastKept? id before := by
  simp [lastKept?_append, kept?, h]

theorem lastKept?_put (h : isId r.id = true) :
    lastKept? id (before ++ [.put nonce r]) = if id = r.id then some r else lastKept? id before := by
  rw [lastKept?_append, kept?]
  by_cases hid : id = r.id <;> simp [h, hid]

variable {id before}

theorem due_put (h : isId r.id = true) : due before (.put nonce r) = .put (.ok ()) := by
  simp [due, h]

theorem due_get_of_none (hid : isId id = true) (h : lastKept? id before = none) :
    due before (.get id) = .get (.ok none) := by
  simp [due, hid, h]

theorem due_get_of_some (hid : isId id = true) (h : lastKept? id before = some r) :
    due before (.get id) = .get (some <$> checkVersion r) := by
  by_cases hnew : Snapshot.currentVersion < r.schemaVersion <;>
    simp [due, hid, h, checkVersion, hnew]

end StoreCall

/-! ## Tracking the calls -/

namespace Shelf

variable {τ : Type} {shelf : Shelf τ} {R : List StoreCall → τ → Prop}

/-- States that stand for the calls so far answer what is due, and a call leads to such a state. -/
def Tracks (shelf : Shelf τ) (R : List StoreCall → τ → Prop) : Prop :=
  ∀ (before : List StoreCall) (t : τ) (c : StoreCall), R before t → c.Fits →
    (shelf.perform c t).1 = c.due before ∧ R (before ++ [c]) (shelf.perform c t).2

theorem Tracks.answers_eq (h : shelf.Tracks R) {before calls : List StoreCall} {t : τ}
    (ht : R before t) (hcalls : ∀ c ∈ calls, c.Fits) :
    shelf.answers calls t = calls.mapIdx fun i c => c.due (before ++ calls.take i) := by
  induction calls generalizing before t with
  | nil => rfl
  | cons c calls ih =>
    obtain ⟨hanswer, hnext⟩ := h before t c ht (hcalls c List.mem_cons_self)
    have hrest := ih hnext fun c' hc' => hcalls c' (List.mem_cons_of_mem c hc')
    rw [answers, hanswer, hrest, List.mapIdx_cons]
    simp

end Shelf

namespace Store

/-- Under every id stands what was kept there last. -/
def Mirrors (calls : List StoreCall) (s : Store) : Prop :=
  ∀ id, s.find? id = StoreCall.lastKept? id calls

theorem Mirrors.get_eq_due {before : List StoreCall} {s : Store} (h : Mirrors before s)
    (id : String) : .get (get id s) = StoreCall.due before (.get id) := by
  cases hid : isId id with
  | false => simp [get_of_not_isId hid, StoreCall.due, hid]
  | true =>
    have hfind := h id
    cases hkept : StoreCall.lastKept? id before with
    | none =>
      rw [hkept] at hfind
      rw [get_of_none hid hfind, StoreCall.due_get_of_none hid hkept]
    | some r =>
      rw [hkept] at hfind
      rw [get_of_some hid hfind, StoreCall.due_get_of_some hid hkept]

theorem tracks_shelf : shelf.Tracks Mirrors := by
  intro before s c hs hc
  cases c with
  | put nonce r =>
    rw [Shelf.perform, show shelf.put nonce r s = put r s from rfl]
    cases hid : isId r.id with
    | false =>
      rw [put_of_not_isId hid]
      refine ⟨by simp [StoreCall.due, hid], fun id => ?_⟩
      rw [StoreCall.lastKept?_refused id before hid]
      exact hs id
    | true =>
      rw [put_of_isId hid, StoreCall.due_put hid]
      refine ⟨rfl, fun id => ?_⟩
      rw [StoreCall.lastKept?_put id before hid, find?_insert, hs id]
  | get id =>
    refine ⟨hs.get_eq_due id, fun other => ?_⟩
    rw [StoreCall.lastKept?_get]
    exact hs other

end Store

namespace Directory

/-- The directory holds files only, and in the file of every id stands what was kept there last,
which can be read back. -/
structure Mirrors (calls : List StoreCall) (d : Directory) : Prop where
  files : d.HasFiles
  entries : ∀ id, d.entry? (fileName id) =
    (StoreCall.lastKept? id calls).map fun r => .file (recordText r)
  legible : ∀ id, ∀ r ∈ StoreCall.lastKept? id calls, r.IsStorable ∧ r.toJson.ReadsBack

namespace Mirrors

variable {before calls : List StoreCall} {d : Directory} {r : Snapshot} {id : String}

theorem of_lastKept? (h : Mirrors before d)
    (hsame : ∀ id, StoreCall.lastKept? id calls = StoreCall.lastKept? id before) :
    Mirrors calls d where
  files := h.files
  entries id := by rw [hsame]; exact h.entries id
  legible id := by rw [hsame]; exact h.legible id

theorem written (h : Mirrors before d) (nonce : String) (hid : isId r.id = true)
    (hr : r.IsStorable ∧ r.toJson.ReadsBack) :
    Mirrors (before ++ [.put nonce r]) (d.written nonce r) where
  files := h.files.written nonce r
  entries id := by
    rw [StoreCall.lastKept?_put id before hid, entry?_written h.files, h.entries id]
    split <;> rfl
  legible id := by
    rw [StoreCall.lastKept?_put id before hid]
    split
    · simpa using hr
    · exact h.legible id

theorem get_eq_due (h : Mirrors before d) (hsize : (fileName id).utf8ByteSize ≤ maxName) :
    .get (get id d) = StoreCall.due before (.get id) := by
  cases hid : isId id with
  | false => simp [get_of_not_isId hid, StoreCall.due, hid]
  | true =>
    have hentry := h.entries id
    cases hkept : StoreCall.lastKept? id before with
    | none =>
      rw [hkept] at hentry
      rw [get_of_none hid hsize hentry, StoreCall.due_get_of_none hid hkept]
    | some r =>
      obtain ⟨hstorable, hread⟩ := h.legible id r hkept
      rw [hkept] at hentry
      rw [get_of_file hid hsize hstorable hread hentry, StoreCall.due_get_of_some hid hkept]

end Mirrors

theorem tracks_shelf : shelf.Tracks Mirrors := by
  intro before d c hd hc
  cases c with
  | put nonce r =>
    rw [Shelf.perform, show shelf.put nonce r d = put none nonce r d from rfl]
    obtain ⟨hsize, hnonce, hr⟩ := hc
    cases hid : isId r.id with
    | false =>
      rw [put_of_not_isId hid]
      exact ⟨by simp [StoreCall.due, hid],
        hd.of_lastKept? fun id => StoreCall.lastKept?_refused id before hid⟩
    | true =>
      rw [put_eq_ok hid (by rw [utf8ByteSize_stagingName, maxName]; omega) hd.files,
        StoreCall.due_put hid]
      exact ⟨rfl, hd.written nonce hid hr⟩
  | get id =>
    have hsize : (fileName id).utf8ByteSize ≤ maxName := by
      have hbytes : id.utf8ByteSize ≤ 213 := hc
      rw [utf8ByteSize_fileName, maxName]
      omega
    exact ⟨hd.get_eq_due hsize, hd.of_lastKept? fun other => StoreCall.lastKept?_get other before id⟩

end Directory

/-- **The stores are interchangeable.** On any calls that fit, a fresh directory and a fresh store in
memory give the same answers, those that are due after the calls before. -/
theorem answers_eq_due (calls : List StoreCall) (h : ∀ c ∈ calls, c.Fits) :
    Directory.shelf.answers calls (some []) = calls.mapIdx (fun i c => c.due (calls.take i)) ∧
      Store.shelf.answers calls .empty = calls.mapIdx (fun i c => c.due (calls.take i)) := by
  have hdirectory : Directory.Mirrors [] (some []) :=
    ⟨⟨[], rfl, by simp⟩, fun _ => rfl, fun _ _ h => by cases h⟩
  have hstore : Store.Mirrors [] .empty := fun _ => rfl
  exact ⟨Directory.tracks_shelf.answers_eq hdirectory h, Store.tracks_shelf.answers_eq hstore h⟩

namespace StoreCall

/-- A record is looked for, kept, replaced by one of a newer layout, and one with another id is
refused. -/
def mixedCalls : List StoreCall :=
  [.get "deals-1", .put "0123456789abcdef0123456789abcdef" (.mixedRecord none), .get "deals-1",
    .put "fedcba9876543210fedcba9876543210"
      { Snapshot.mixedRecord (some (.list [])) with schemaVersion := 2 }, .get "deals-1",
    .put "" { Snapshot.mixedRecord none with id := "../deals" }, .get "../deals"]

theorem readsBack_mixedNumbers : (Json.float 1.5).ReadsBack ∧ (Json.float 20).ReadsBack ∧
    (Json.float 3).ReadsBack := by
  have htenth (n : Nat) : Decimal.scaled? ⟨n, -1⟩ = some (Float.ofNat n / Scaled.powerOfTen 1) :=
    Decimal.scaled?_negSucc (by decide)
  exact ⟨Json.readsBack_float (s := "1.5") (by decide) rfl ((htenth 15).trans (by decide)),
    Json.readsBack_float (s := "20.0") (by decide) rfl ((htenth 200).trans (by decide)),
    Json.readsBack_float (s := "3.0") (by decide) rfl ((htenth 30).trans (by decide))⟩

theorem readsBack_mixedRecord (picked : Option Value) (h : ∀ v ∈ picked, v.toJson.IsLegible 120)
    {version : Nat} (hversion : version < 1 <<< 32) (id : String) :
    { Snapshot.mixedRecord picked with schemaVersion := version, id := id }.toJson.ReadsBack := by
  have hwords : (Json.int version).ReadsBack ∧ (Json.int 1700000000000).ReadsBack :=
    ⟨Json.readsBack_int (by omega), Json.readsBack_int (by omega)⟩
  have hfinite : (1.5 : Float).isFinite = true ∧ (20 : Float).isFinite = true ∧
      (3 : Float).isFinite = true := by decide
  have hlegible : { Snapshot.mixedRecord picked with
      schemaVersion := version, id := id }.toJson.IsLegible Doc.maxDepth := by
    cases picked <;>
      simp [Snapshot.mixedRecord, Snapshot.mixedGroups, Snapshot.toJson,
        Snapshot.fieldsBeforeCredential, Snapshot.fieldsAfterCredential, Group.listToJson,
        Group.toJsonAll, Group.toJson, Condition.toJson, Condition.blank, Value.toJson,
        Scalar.toJson, Json.field?, Json.ofNat, Json.ofFloat, Doc.maxDepth, hfinite, hwords,
        readsBack_mixedNumbers]
    exact h _ rfl
  exact hlegible.readsBack

theorem fits_mixedCalls : ∀ c ∈ mixedCalls, c.Fits := by
  have hfirst := Snapshot.isStorable_mixedRecord none nofun
  have hsecond := Snapshot.isStorable_mixedRecord (some (.list [])) (by simp [Value.IsFinite])
  have hlist : ∀ v ∈ some (Value.list []), v.toJson.IsLegible 120 := by simp [Value.toJson]
  have hread := readsBack_mixedRecord none nofun (show 1 < 1 <<< 32 by decide)
  simp only [mixedCalls, List.forall_mem_cons, List.not_mem_nil, false_implies, implies_true,
    and_true, Fits]
  refine ⟨by decide, ⟨by decide, by decide, hfirst, hread "deals-1"⟩, by decide,
    ⟨by decide, by decide, ⟨by decide, hsecond.time, hsecond.filters⟩,
      readsBack_mixedRecord _ hlist (by decide) "deals-1"⟩, by decide,
    ⟨by decide, by decide, ⟨hfirst.version, hfirst.time, hfirst.filters⟩, hread "../deals"⟩,
    by decide⟩

theorem answers_eq_due_mixedCalls :
    (∀ c ∈ mixedCalls, c.Fits) ∧
      Directory.shelf.answers mixedCalls (some []) =
        [.get (.ok none), .put (.ok ()), .get (.ok (some (.mixedRecord none))), .put (.ok ()),
          .get (.error .internal),
          .put (.error (.invalidRequest "invalid snapshot id '../deals'")),
          .get (.error (.invalidRequest "invalid snapshot id '../deals'"))] ∧
      Store.shelf.answers mixedCalls .empty = Directory.shelf.answers mixedCalls (some []) := by
  obtain ⟨hdirectory, hstore⟩ := answers_eq_due mixedCalls fits_mixedCalls
  refine ⟨fits_mixedCalls, ?_, hstore.trans hdirectory.symm⟩
  rw [hdirectory]
  rfl

end StoreCall

end ChartFeed
