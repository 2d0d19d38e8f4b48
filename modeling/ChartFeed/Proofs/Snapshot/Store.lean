import ChartFeed.Snapshot.Store

/-!
# Records in memory

* `Store.find?_insert` : a record that is put into a store is found under its id, and no other id is
  affected.
* `Store.IsKeyed`, `Store.IsBuilt` : every record stands under its own id, as it does in every store
  that records were only put into.
* `Store.ids` : the ids that records stand under, each of them once in such a store.
* `Store.fetch` : the record of an id, or why there is none.
* `Store.Holds` : a record stands in a store, whatever its stamp is.
-/

namespace ChartFeed

theorem checkId_eq_ok {id : String} : checkId id = .ok () ↔ isId id = true := by
  unfold checkId
  cases isId id <;> simp

theorem checkId_eq_error {id : String} (h : isId id = false) :
    checkId id = .error (.invalidRequest ("invalid snapshot id '" ++ id ++ "'")) := by
  simp [checkId, h]

theorem checkVersion_eq_ok {s s' : Snapshot} (h : checkVersion s = .ok s') : s' = s := by
  unfold checkVersion at h
  split at h <;> cases h
  rfl

namespace Store

variable {s : Store} {r : Snapshot} {id : String}

/-! ## Finding and inserting -/

theorem lookup_cons {β : Type} (id key : String) (b : β) (rest : List (String × β)) :
    List.lookup id ((key, b) :: rest) = if id = key then some b else List.lookup id rest := by
  rw [List.lookup_cons]
  by_cases h : id = key
  · rw [if_pos h, beq_iff_eq.mpr h]
  · rw [if_neg h, beq_eq_false_iff_ne.mpr h]

theorem lookup_insertRecord (r : Snapshot) (records : List (String × Snapshot)) (id : String) :
    (insertRecord r records).lookup id = if id = r.id then some r else records.lookup id := by
  induction records with
  | nil => rw [insertRecord, lookup_cons]
  | cons entry rest ih =>
    obtain ⟨key, old⟩ := entry
    rw [insertRecord]
    by_cases hkey : key = r.id
    · rw [if_pos hkey, lookup_cons, lookup_cons, hkey]
      by_cases h : id = r.id
      · rw [if_pos h, if_pos h]
      · rw [if_neg h, if_neg h, if_neg h]
    · rw [if_neg hkey, lookup_cons, lookup_cons, ih]
      by_cases h : id = key
      · rw [if_pos h, if_pos h, if_neg (h ▸ hkey)]
      · rw [if_neg h, if_neg h]

theorem find?_insert (s : Store) (r : Snapshot) (id : String) :
    (s.insert r).find? id = if id = r.id then some r else s.find? id :=
  lookup_insertRecord r s.records id

theorem find?_insert_self (s : Store) (r : Snapshot) : (s.insert r).find? r.id = some r := by
  rw [find?_insert, if_pos rfl]

theorem find?_insert_of_ne (s : Store) (h : id ≠ r.id) : (s.insert r).find? id = s.find? id := by
  rw [find?_insert, if_neg h]

/-! ## Calls -/

theorem put_of_isId (h : isId r.id = true) : put r s = (.ok (), s.insert r) := by
  rw [put, checkId_eq_ok.mpr h]

theorem put_of_not_isId (h : isId r.id = false) : put r s =
    (.error (.invalidRequest ("invalid snapshot id '" ++ r.id ++ "'")), s) := by
  rw [put, checkId_eq_error h]

theorem get_of_none (hid : isId id = true) (h : s.find? id = none) : get id s = .ok none := by
  simp only [get, checkId_eq_ok.mpr hid, h]
  rfl

theorem get_of_some (hid : isId id = true) (h : s.find? id = some r) :
    get id s = some <$> checkVersion r := by
  simp only [get, checkId_eq_ok.mpr hid, h]
  rfl

theorem get_of_not_isId (h : isId id = false) :
    get id s = .error (.invalidRequest ("invalid snapshot id '" ++ id ++ "'")) := by
  rw [get, checkId_eq_error h]
  rfl

/-! ## Keys -/

/-- Every record stands under its own id. -/
def IsKeyed (s : Store) : Prop := ∀ id r, s.find? id = some r → r.id = id

theorem isKeyed_empty : empty.IsKeyed := by
  intro id r h
  cases h

theorem IsKeyed.insert (h : s.IsKeyed) (r : Snapshot) : (s.insert r).IsKeyed := by
  intro id r' hfind
  rw [find?_insert] at hfind
  by_cases hid : id = r.id
  · rw [if_pos hid] at hfind
    cases hfind
    exact hid.symm
  · rw [if_neg hid] at hfind
    exact h id r' hfind

/-- The stores in memory: the empty one, and those that a record was put into. -/
inductive IsBuilt : Store → Prop where
  | empty : IsBuilt .empty
  | put {s : Store} (h : IsBuilt s) (r : Snapshot) : IsBuilt (put r s).2

theorem IsBuilt.isKeyed (h : s.IsBuilt) : s.IsKeyed := by
  induction h with
  | empty => exact isKeyed_empty
  | put h r ih =>
    unfold Store.put
    cases checkId r.id with
    | error f => exact ih
    | ok _ => exact ih.insert r

/-! ## Ids -/

/-- The ids that records stand under, in the order in which they were put there. -/
def ids (s : Store) : List String := s.records.map Prod.fst

theorem length_ids (s : Store) : s.ids.length = s.size := List.length_map _

theorem ids_insertRecord (r : Snapshot) (records : List (String × Snapshot)) :
    (insertRecord r records).map Prod.fst =
      if r.id ∈ records.map Prod.fst then records.map Prod.fst
      else records.map Prod.fst ++ [r.id] := by
  induction records with
  | nil => rfl
  | cons entry rest ih =>
    obtain ⟨id, old⟩ := entry
    rw [insertRecord]
    by_cases hid : id = r.id
    · simp [hid]
    · simp only [if_neg hid, List.map_cons, ih, List.mem_cons, Ne.symm hid, false_or]
      split <;> rfl

theorem ids_insert (s : Store) (r : Snapshot) :
    (s.insert r).ids = if r.id ∈ s.ids then s.ids else s.ids ++ [r.id] :=
  ids_insertRecord r s.records

theorem mem_ids : id ∈ s.ids ↔ s.find? id ≠ none := by
  unfold ids find?
  induction s.records with
  | nil => simp
  | cons entry rest ih =>
    obtain ⟨key, old⟩ := entry
    rw [lookup_cons, List.map_cons, List.mem_cons, ih]
    by_cases hid : id = key
    · simp [hid]
    · simp [hid]

theorem nodup_ids_insert (h : s.ids.Nodup) (r : Snapshot) : (s.insert r).ids.Nodup := by
  rw [ids_insert]
  split
  · exact h
  · rename_i hnew
    refine List.nodup_append.mpr ⟨h, by simp, ?_⟩
    intro id hid id' hid'
    rw [List.mem_singleton.mp hid']
    rintro rfl
    exact hnew hid

theorem IsBuilt.nodup_ids (h : s.IsBuilt) : s.ids.Nodup := by
  induction h with
  | empty => exact List.nodup_nil
  | put h r ih =>
    unfold Store.put
    cases checkId r.id with
    | error f => exact ih
    | ok _ => exact nodup_ids_insert ih r

/-! ## Fetching -/

/-- The record of an id, which has to be there. -/
def fetch (id : String) (s : Store) : Except Failure Snapshot := do
  checkId id
  match s.find? id with
  | some r => checkVersion r
  | none => .error (.notFound ("query snapshot '" ++ id ++ "'"))

theorem fetch_eq_ok (h : s.fetch id = .ok r) : isId id = true ∧ s.find? id = some r := by
  unfold fetch at h
  cases hid : checkId id with
  | error f =>
    rw [hid] at h
    cases h
  | ok _ =>
    rw [hid] at h
    cases hfind : s.find? id with
    | none =>
      rw [hfind] at h
      cases h
    | some r' =>
      rw [hfind] at h
      refine ⟨checkId_eq_ok.mp hid, ?_⟩
      rw [checkVersion_eq_ok h]

theorem fetch_of_find? (hid : isId id = true) (hfind : s.find? id = some r)
    (hversion : r.schemaVersion ≤ Snapshot.currentVersion) : s.fetch id = .ok r := by
  unfold fetch
  rw [checkId_eq_ok.mpr hid, hfind]
  exact if_neg (by omega)

/-! ## Holding a record -/

/-- A record stands in a store, whatever its stamp is. -/
def Holds (s : Store) (r : Snapshot) : Prop :=
  ∃ stamp, s.find? r.id = some { r with lastUpdated := stamp }

theorem holds_insert_self (s : Store) (r : Snapshot) : (s.insert r).Holds r :=
  ⟨r.lastUpdated, find?_insert_self s r⟩

theorem Holds.insert_of_ne {r' : Snapshot} (h : s.Holds r) (hne : r.id ≠ r'.id) :
    (s.insert r').Holds r := by
  obtain ⟨stamp, hfind⟩ := h
  exact ⟨stamp, by rw [find?_insert_of_ne s hne, hfind]⟩

end Store

end ChartFeed
