import ChartFeed.Proofs.Json.Reading
import ChartFeed.Proofs.Snapshot.Coding
import ChartFeed.Proofs.Snapshot.Store

/-!
# Records in a directory

* `Directory.fileName_inj`, `Directory.stagingName_ne_fileName` : each record has a file of its own,
  and none is written on the way.
* `Directory.entry?_set`, `Directory.entry?_remove` : what stands in a directory after a change.
* `Directory.HasFiles` : a directory that is there and holds nothing but files.
* `Directory.put_eq_ok`, `Directory.get_of_none`, `Directory.get_of_file` : writing a record down and
  reading one back.
-/

namespace ChartFeed

namespace Directory

variable {d : Directory} {id name : String} {r : Snapshot}

/-! ## Names -/

theorem fileName_inj {id id' : String} : fileName id = fileName id' ↔ id = id' :=
  String.append_left_inj _

theorem stagingName_ne_fileName (id nonce id' : String) : stagingName id nonce ≠ fileName id' := by
  intro h
  have hlast := congrArg (·.toList.getLast?) h
  simp [stagingName, fileName, List.getLast?_append, List.getLast?_cons] at hlast

theorem utf8ByteSize_fileName (id : String) : (fileName id).utf8ByteSize = id.utf8ByteSize + 5 := by
  rw [fileName, String.utf8ByteSize_append]
  rfl

theorem utf8ByteSize_stagingName (id nonce : String) :
    (stagingName id nonce).utf8ByteSize = id.utf8ByteSize + nonce.utf8ByteSize + 10 := by
  simp only [stagingName, String.utf8ByteSize_append]
  have hsuffix : ".json.".utf8ByteSize = 6 ∧ ".tmp".utf8ByteSize = 4 := ⟨rfl, rfl⟩
  omega

/-! ## Entries -/

theorem lookup_filter {keep : String × Entry → Bool} {entries : List (String × Entry)}
    (h : ∀ e, keep (name, e) = true) : (entries.filter keep).lookup name = entries.lookup name := by
  induction entries with
  | nil => rfl
  | cons entry entries ih =>
    obtain ⟨key, e⟩ := entry
    rw [Store.lookup_cons]
    by_cases hkey : name = key
    · subst hkey
      rw [List.filter_cons_of_pos (h e), Store.lookup_cons]
      simp
    · rw [if_neg hkey, ← ih]
      by_cases hkeep : keep (key, e) = true
      · rw [List.filter_cons_of_pos hkeep, Store.lookup_cons, if_neg hkey]
      · rw [List.filter_cons_of_neg hkeep]

theorem entry?_set (name target : String) (e : Entry) (d : Directory) (h : d.isSome = true) :
    entry? name (set target e d) = if name = target then some e else d.entry? name := by
  obtain ⟨entries, rfl⟩ := Option.isSome_iff_exists.mp h
  show List.lookup name ((target, e) :: entries.filter (·.1 != target)) = _
  rw [Store.lookup_cons]
  by_cases hname : name = target
  · rw [if_pos hname, if_pos hname]
  · rw [if_neg hname, if_neg hname]
    exact lookup_filter fun _ => by simpa using hname

theorem entry?_remove (d : Directory) {target : String} (h : name ≠ target) :
    entry? name (remove target d) = d.entry? name := by
  cases d with
  | none => rfl
  | some entries => exact lookup_filter fun _ => by simp [h]

/-- The directory is there and holds files only. -/
def HasFiles (d : Directory) : Prop := ∃ entries, d = some entries ∧ ∀ e ∈ entries, e.2 ≠ .folder

namespace HasFiles

theorem isSome (h : d.HasFiles) : d.isSome = true := by
  obtain ⟨entries, rfl, -⟩ := h
  rfl

theorem not_folder (h : d.HasFiles) (name : String) :
    (d.entry? name == some .folder) = false := by
  obtain ⟨entries, rfl, hfiles⟩ := h
  rw [beq_eq_false_iff_ne]
  intro hfolder
  obtain ⟨before, after, rfl, -⟩ := List.lookup_eq_some_iff.mp hfolder
  exact hfiles (name, .folder) (by simp) rfl

theorem set (h : d.HasFiles) (name text : String) : (d.set name (.file text)).HasFiles := by
  obtain ⟨entries, rfl, hfiles⟩ := h
  refine ⟨_, rfl, fun e he => ?_⟩
  obtain rfl | he := List.mem_cons.mp he
  · simp
  · exact hfiles e (List.mem_filter.mp he).1

theorem remove (h : d.HasFiles) (name : String) : (d.remove name).HasFiles := by
  obtain ⟨entries, rfl, hfiles⟩ := h
  exact ⟨_, rfl, fun e he => hfiles e (List.mem_filter.mp he).1⟩

end HasFiles

/-! ## Writing and reading -/

/-- The directory after a record was written beside its place and moved there. -/
def written (nonce : String) (r : Snapshot) (d : Directory) : Directory :=
  ((d.set (stagingName r.id nonce) (.file (recordText r))).remove (stagingName r.id nonce)).set
    (fileName r.id) (.file (recordText r))

theorem put_of_not_isId {nonce : String} (h : isId r.id = false) : put none nonce r d =
    (.error (.invalidRequest ("invalid snapshot id '" ++ r.id ++ "'")), d) := by
  rw [put, checkId_eq_error h]

theorem put_eq_ok {nonce : String} (hid : isId r.id = true)
    (hsize : (stagingName r.id nonce).utf8ByteSize ≤ maxName) (h : d.HasFiles) :
    put none nonce r d = (.ok (), d.written nonce r) := by
  have hthere : d.isNone = false := by simp [h.isSome]
  have hwrite : d.write none (stagingName r.id nonce) (recordText r) =
      (true, d.set (stagingName r.id nonce) (.file (recordText r))) := by
    simp [write, hthere, h.not_folder, Nat.not_lt.mpr hsize]
  have hfile : (fileName r.id).utf8ByteSize ≤ maxName := by
    rw [utf8ByteSize_stagingName] at hsize
    rw [utf8ByteSize_fileName]
    omega
  have hstaged := h.set (stagingName r.id nonce) (recordText r)
  have hrename : (d.set (stagingName r.id nonce) (.file (recordText r))).rename
      (stagingName r.id nonce) (fileName r.id) = (true, d.written nonce r) := by
    have hentry := entry?_set (stagingName r.id nonce) (stagingName r.id nonce)
      (.file (recordText r)) d h.isSome
    rw [if_pos rfl] at hentry
    simp [rename, hentry, hstaged.not_folder, Nat.not_lt.mpr hfile, written]
  simp [put, checkId_eq_ok.mpr hid, hwrite, hrename]

theorem HasFiles.written (h : d.HasFiles) (nonce : String) (r : Snapshot) :
    (d.written nonce r).HasFiles :=
  ((h.set _ _).remove _).set _ _

theorem entry?_written (h : d.HasFiles) (nonce : String) (r : Snapshot) (id : String) :
    entry? (fileName id) (d.written nonce r) =
      if id = r.id then some (.file (recordText r)) else d.entry? (fileName id) := by
  have hstaging := (h.set (stagingName r.id nonce) (recordText r)).remove (stagingName r.id nonce)
  have hne : fileName id ≠ stagingName r.id nonce := (stagingName_ne_fileName r.id nonce id).symm
  rw [written, entry?_set _ _ _ _ hstaging.isSome, entry?_remove _ hne, entry?_set _ _ _ _ h.isSome,
    if_neg hne]
  simp only [fileName_inj]

theorem get_of_not_isId (h : isId id = false) :
    get id d = .error (.invalidRequest ("invalid snapshot id '" ++ id ++ "'")) := by
  rw [get, checkId_eq_error h]
  rfl

theorem get_of_none (hid : isId id = true) (hsize : (fileName id).utf8ByteSize ≤ maxName)
    (h : d.entry? (fileName id) = none) : get id d = .ok none := by
  simp only [get, checkId_eq_ok.mpr hid, Nat.not_lt.mpr hsize, decide_false, Bool.and_false, h]
  rfl

theorem get_of_file (hid : isId id = true) (hsize : (fileName id).utf8ByteSize ≤ maxName)
    (hr : r.IsStorable) (hread : r.toJson.ReadsBack)
    (h : d.entry? (fileName id) = some (.file (recordText r))) :
    get id d = some <$> checkVersion r := by
  have hdecode : Doc.ofText Snapshot.decoder (recordText r) = .ok r := by
    rw [Doc.ofText, recordText, show Doc.read r.toJson.pretty = _ from hread]
    have hvalue := Snapshot.reads_decoder hr _ (Doc.writes_ofJson r.toJson)
    simp only [hvalue]
    rfl
  simp only [get, checkId_eq_ok.mpr hid, Nat.not_lt.mpr hsize, decide_false, Bool.and_false, h,
    hdecode]
  rfl

end Directory

end ChartFeed
