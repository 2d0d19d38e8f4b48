import ChartFeed.Proofs.Snapshot.Files

/-!
# What a store does in its directory

* `FileTask` : what a call does with the entries of a directory, one operation after the other;
  `FileTask.Within` says whose names it uses, on every branch.
* `FileTask.KeepsTo`, `FileTask.Within.keepsTo` : entries of other names have no influence on it and
  stay as they are.
* `Directory.putTask`, `Directory.getTask` : what `put` and `get` do.
* `Directory.within_putTask`, `Directory.within_getTask` : they use names of their own id only.
* `Directory.isEntryName_of_isPutName` : such a name leads to no other directory.
-/

namespace ChartFeed

inductive Reading where
  | text (s : String)
  | absent
  | failed

namespace Directory

/-- Reads a file. A name that is too long is refused by a directory that is there. -/
def read (name : String) (d : Directory) : Reading :=
  if d.isSome && maxName < name.utf8ByteSize then .failed
  else match d.entry? name with
    | none => .absent
    | some .folder => .failed
    | some (.file text) => .text text

end Directory

/-- What a call does with the entries of a directory until it answers. -/
inductive FileTask (α : Type) where
  | done (a : α)
  | write (name text : String) (next : Bool → FileTask α)
  | rename (name target : String) (next : Bool → FileTask α)
  | remove (name : String) (next : FileTask α)
  | read (name : String) (next : Reading → FileTask α)

namespace FileTask

variable {α : Type}

/-- The answer, and the directory afterwards; `cut` is set when writing fails under way. -/
def run (cut : Option Nat) : FileTask α → Directory → α × Directory
  | done a, d => (a, d)
  | write name text next, d => (next (d.write cut name text).1).run cut (d.write cut name text).2
  | rename name target next, d => (next (d.rename name target).1).run cut (d.rename name target).2
  | remove name next, d => next.run cut (d.remove name)
  | read name next, d => (next (d.read name)).run cut d

/-- Every name that the task uses, whatever the operations come to, is one of those. -/
def Within (names : String → Bool) : FileTask α → Prop
  | done _ => True
  | write name _ next => names name = true ∧ ∀ ok, (next ok).Within names
  | rename name target next => names name = true ∧ names target = true ∧ ∀ ok, (next ok).Within names
  | remove name next => names name = true ∧ next.Within names
  | read name next => names name = true ∧ ∀ reading, (next reading).Within names

end FileTask

/-! ## Entries of some names -/

namespace Directory

/-- The entries of some names. -/
def restrict (names : String → Bool) (d : Directory) : Directory :=
  d.map fun entries => entries.filter fun e => names e.1

variable {names : String → Bool} {name target : String}

theorem isSome_restrict (names : String → Bool) (d : Directory) :
    (d.restrict names).isSome = d.isSome :=
  Option.isSome_map

theorem isNone_restrict (names : String → Bool) (d : Directory) :
    (d.restrict names).isNone = d.isNone :=
  Option.isNone_map

theorem entry?_restrict (h : names name = true) (d : Directory) :
    entry? name (d.restrict names) = d.entry? name := by
  cases d with
  | none => rfl
  | some entries => exact lookup_filter fun _ => h

theorem restrict_remove (names : String → Bool) (name : String) (d : Directory) :
    (d.remove name).restrict names = (d.restrict names).remove name := by
  cases d with
  | none => rfl
  | some entries =>
    simp only [remove, restrict, Option.map_some, List.filter_filter, Bool.and_comm]

theorem restrict_set (h : names name = true) (e : Entry) (d : Directory) :
    (d.set name e).restrict names = (d.restrict names).set name e := by
  cases d with
  | none => rfl
  | some entries =>
    simp [set, restrict, List.filter_filter, Bool.and_comm, h]

theorem write_restrict (h : names name = true) (cut : Option Nat) (text : String) (d : Directory) :
    (d.restrict names).write cut name text =
      ((d.write cut name text).1, (d.write cut name text).2.restrict names) := by
  unfold write
  rw [isNone_restrict, entry?_restrict h]
  split
  · rfl
  · cases cut with
    | none => rw [restrict_set h]
    | some n => rw [restrict_set h]

theorem rename_restrict (h : names name = true) (htarget : names target = true) (d : Directory) :
    (d.restrict names).rename name target =
      ((d.rename name target).1, (d.rename name target).2.restrict names) := by
  unfold rename
  rw [entry?_restrict h, entry?_restrict htarget]
  split
  · split
    · rfl
    · rw [restrict_set htarget, restrict_remove]
  · rfl

theorem read_restrict (h : names name = true) (d : Directory) :
    (d.restrict names).read name = d.read name := by
  unfold read
  rw [isSome_restrict, entry?_restrict h]

theorem remove_others (h : names name = true) (d : Directory) :
    (d.remove name).restrict (! names ·) = d.restrict (! names ·) := by
  cases d with
  | none => rfl
  | some entries =>
    simp only [remove, restrict, Option.map_some, List.filter_filter]
    refine congrArg some (List.filter_congr fun e _ => ?_)
    by_cases he : e.1 = name
    · simp [he, h]
    · simp [he]

theorem set_others (h : names name = true) (e : Entry) (d : Directory) :
    (d.set name e).restrict (! names ·) = d.restrict (! names ·) := by
  cases d with
  | none => rfl
  | some entries =>
    simp only [set, restrict, Option.map_some]
    rw [List.filter_cons_of_neg (by simp [h]), List.filter_filter]
    refine congrArg some (List.filter_congr fun e _ => ?_)
    by_cases he : e.1 = name
    · simp [he, h]
    · simp [he]

theorem write_others (h : names name = true) (cut : Option Nat) (text : String) (d : Directory) :
    (d.write cut name text).2.restrict (! names ·) = d.restrict (! names ·) := by
  fun_cases Directory.write cut name text d with
  | case1 => rfl
  | case2 => exact set_others h _ d
  | case3 => exact set_others h _ d

theorem rename_others (h : names name = true) (htarget : names target = true) (d : Directory) :
    (d.rename name target).2.restrict (! names ·) = d.restrict (! names ·) := by
  fun_cases Directory.rename name target d with
  | case1 => rfl
  | case2 => exact (set_others htarget _ _).trans (remove_others h d)
  | case3 => rfl

end Directory

namespace FileTask

variable {α : Type} {names : String → Bool} {t : FileTask α}

/-- Entries of other names have no influence on the task, without which it answers the same and does
the same, and they stay as they are. -/
structure KeepsTo (names : String → Bool) (t : FileTask α) : Prop where
  alone : ∀ cut d, t.run cut (d.restrict names) = ((t.run cut d).1, (t.run cut d).2.restrict names)
  others : ∀ cut d, (t.run cut d).2.restrict (! names ·) = d.restrict (! names ·)

theorem run_restrict (h : t.Within names) (cut : Option Nat) (d : Directory) :
    t.run cut (d.restrict names) = ((t.run cut d).1, (t.run cut d).2.restrict names) := by
  induction t generalizing d with
  | done a => rfl
  | write name text next ih =>
    obtain ⟨hname, hnext⟩ := h
    rw [run, Directory.write_restrict hname]
    exact ih _ (hnext _) _
  | rename name target next ih =>
    obtain ⟨hname, htarget, hnext⟩ := h
    rw [run, Directory.rename_restrict hname htarget]
    exact ih _ (hnext _) _
  | remove name next ih =>
    obtain ⟨hname, hnext⟩ := h
    rw [run, ← Directory.restrict_remove]
    exact ih hnext _
  | read name next ih =>
    obtain ⟨hname, hnext⟩ := h
    rw [run, Directory.read_restrict hname]
    exact ih _ (hnext _) _

theorem run_others (h : t.Within names) (cut : Option Nat) (d : Directory) :
    (t.run cut d).2.restrict (! names ·) = d.restrict (! names ·) := by
  induction t generalizing d with
  | done a => rfl
  | write name text next ih =>
    obtain ⟨hname, hnext⟩ := h
    exact (ih _ (hnext _) _).trans (Directory.write_others hname _ _ _)
  | rename name target next ih =>
    obtain ⟨hname, htarget, hnext⟩ := h
    exact (ih _ (hnext _) _).trans (Directory.rename_others hname htarget _)
  | remove name next ih =>
    obtain ⟨hname, hnext⟩ := h
    exact (ih hnext _).trans (Directory.remove_others hname _)
  | read name next ih =>
    obtain ⟨hname, hnext⟩ := h
    exact ih _ (hnext _) _

/-- **A task keeps to the names that it uses.** -/
theorem Within.keepsTo (h : t.Within names) : t.KeepsTo names := ⟨run_restrict h, run_others h⟩

end FileTask

/-! ## Putting and getting -/

namespace Directory

/-- What putting a record does: it is written beside its place and moved there, and what was written
is removed if either fails. -/
def putTask (nonce : String) (r : Snapshot) : FileTask (Except Failure Unit) :=
  match checkId r.id with
  | .error f => .done (.error f)
  | .ok () =>
    let staging := stagingName r.id nonce
    let abandon := FileTask.remove staging (.done (.error .internal))
    .write staging (recordText r) fun
      | false => abandon
      | true => .rename staging (fileName r.id) fun
        | false => abandon
        | true => .done (.ok ())

def getTask (id : String) : FileTask (Except Failure (Option Snapshot)) :=
  match checkId id with
  | .error f => .done (.error f)
  | .ok () => .read (fileName id) fun
    | .absent => .done (.ok none)
    | .failed => .done (.error .internal)
    | .text text => .done <| match Doc.ofText Snapshot.decoder text with
      | .error _ => .error .internal
      | .ok r => some <$> checkVersion r

theorem run_putTask (cut : Option Nat) (nonce : String) (r : Snapshot) (d : Directory) :
    (putTask nonce r).run cut d = put cut nonce r d := by
  unfold putTask put
  cases checkId r.id with
  | error f => rfl
  | ok _ =>
    simp only [FileTask.run]
    rcases d.write cut (stagingName r.id nonce) (recordText r) with ⟨_ | _, d'⟩
    · rfl
    · simp only [FileTask.run]
      rcases d'.rename (stagingName r.id nonce) (fileName r.id) with ⟨_ | _, d''⟩
      · rfl
      · rfl

theorem run_getTask (cut : Option Nat) (id : String) (d : Directory) :
    (getTask id).run cut d = (get id d, d) := by
  unfold getTask get
  cases checkId id with
  | error f => rfl
  | ok _ =>
    simp only [FileTask.run, read]
    cases d.isSome && decide (maxName < (fileName id).utf8ByteSize) with
    | true => rfl
    | false =>
      cases d.entry? (fileName id) with
      | none => rfl
      | some e =>
        cases e with
        | folder => rfl
        | file text =>
          refine Prod.ext ?_ rfl
          simp only [Bool.false_eq_true, if_false, FileTask.run]
          cases Doc.ofText Snapshot.decoder text <;> rfl

/-- The names that getting a record may use: its file, if the id is one. -/
def isGetName (id name : String) : Bool := isId id && name == fileName id

/-- The names that putting a record may use: its file and the name beside it, if the id is one. -/
def isPutName (id nonce name : String) : Bool :=
  isId id && (name == fileName id || name == stagingName id nonce)

theorem within_putTask (nonce : String) (r : Snapshot) :
    (putTask nonce r).Within (isPutName r.id nonce) := by
  unfold putTask
  cases hid : checkId r.id with
  | error f => trivial
  | ok _ =>
    have hvalid := checkId_eq_ok.mp hid
    have hfile : isPutName r.id nonce (fileName r.id) = true := by simp [isPutName, hvalid]
    have hstaging : isPutName r.id nonce (stagingName r.id nonce) = true := by
      simp [isPutName, hvalid]
    refine ⟨hstaging, ?_⟩
    rintro (_ | _)
    · exact ⟨hstaging, trivial⟩
    · refine ⟨hstaging, hfile, ?_⟩
      rintro (_ | _)
      · exact ⟨hstaging, trivial⟩
      · trivial

theorem within_getTask (id : String) : (getTask id).Within (isGetName id) := by
  unfold getTask
  cases hid : checkId id with
  | error f => trivial
  | ok _ =>
    have hfile : isGetName id (fileName id) = true := by simp [isGetName, checkId_eq_ok.mp hid]
    refine ⟨hfile, ?_⟩
    rintro (_ | _ | _) <;> trivial

/-! ## Names of entries -/

/-- The name is that of an entry: neither the directory itself nor the one above it, and no way
through others. -/
structure IsEntryName (name : String) : Prop where
  ne_empty : name ≠ ""
  ne_here : name ≠ "."
  ne_above : name ≠ ".."
  no_slash : '/' ∉ name.toList

/-- A random text of hexadecimal digits. -/
def IsNonce (nonce : String) : Prop := ∀ c ∈ nonce.toList, (Text.hexDigit? c).isSome = true

theorem no_slash_of_isId {id : String} (h : isId id = true) : '/' ∉ id.toList := by
  intro hslash
  simp only [isId, Bool.and_eq_true, List.all_eq_true] at h
  have := h.2 '/' hslash
  revert this
  decide

theorem IsNonce.no_slash {nonce : String} (h : IsNonce nonce) : '/' ∉ nonce.toList := by
  intro hslash
  have := h '/' hslash
  revert this
  decide

theorem isEntryName_of_ending {name ending start : String} {c : Char}
    (h : name = start ++ ending) (hlast : ending.toList.getLast? = some c) (hc : c ≠ '.')
    (hslash : '/' ∉ name.toList) : IsEntryName name := by
  have hname : name.toList.getLast? = some c := by
    rw [h, String.toList_append, List.getLast?_append, hlast]
    rfl
  refine ⟨?_, ?_, ?_, hslash⟩
  · rintro rfl
    cases hname
  · rintro rfl
    exact hc (Option.some.inj hname).symm
  · rintro rfl
    exact hc (Option.some.inj hname).symm

theorem isEntryName_fileName {id : String} (h : isId id = true) : IsEntryName (fileName id) := by
  refine isEntryName_of_ending rfl rfl (show 'n' ≠ '.' by decide) ?_
  simp [fileName, no_slash_of_isId h]

theorem isEntryName_stagingName {id nonce : String} (h : isId id = true) (hnonce : IsNonce nonce) :
    IsEntryName (stagingName id nonce) := by
  refine isEntryName_of_ending rfl rfl (show 'p' ≠ '.' by decide) ?_
  simp [stagingName, no_slash_of_isId h, hnonce.no_slash]

/-- **The names that putting a record uses lead to no other directory.** -/
theorem isEntryName_of_isPutName {id nonce name : String} (hnonce : IsNonce nonce)
    (h : isPutName id nonce name = true) : IsEntryName name := by
  simp only [isPutName, Bool.and_eq_true, Bool.or_eq_true, beq_iff_eq] at h
  obtain ⟨hid, rfl | rfl⟩ := h
  · exact isEntryName_fileName hid
  · exact isEntryName_stagingName hid hnonce

theorem isEntryName_of_isGetName {id name : String} (h : isGetName id name = true) :
    IsEntryName name := by
  simp only [isGetName, Bool.and_eq_true, beq_iff_eq] at h
  obtain ⟨hid, rfl⟩ := h
  exact isEntryName_fileName hid

end Directory

end ChartFeed
