import ChartFeed.Proofs.Snapshot.Shelves
import ChartFeed.Proofs.Snapshot.Task

/-!
# Records are put whole or not at all

* `Directory.Event`, `Directory.after` : what happens to a directory, by the store and behind its
  back, and what the directory is then.
* `Directory.IsTidy` : nothing stands in it but under the names of records; events keep it so.
* `Directory.Admits` : nothing keeps a record from its place.
* `Directory.put_of_admits`, `Directory.put_of_not_admits` : a record is put in its place, or the
  directory is left as it was.
* `Directory.put_atomic` : so it is after any events.
-/

namespace ChartFeed

namespace Directory

open ChartFeed.Filter (Value)

/-! ## What happens to a directory -/

/-- Makes a folder, where nothing has the name yet. -/
def makeFolder (name : String) (d : Directory) : Directory :=
  if maxName < name.utf8ByteSize || (d.entry? name).isSome then d else d.set name .folder

/-- What happens to a directory: the store puts and gets records; others write files and make folders
under the names of records, or remove the directory. -/
inductive Event where
  | put (cut : Option Nat) (nonce : String) (r : Snapshot)
  | get (id : String)
  | write (id text : String)
  | makeFolder (id : String)
  | removal

def Event.apply : Event → Directory → Directory
  | .put cut nonce r, d => (Directory.put cut nonce r d).2
  | .get id, d => ((getTask id).run none d).2
  | .write id text, d => (d.write none (fileName id) text).2
  | .makeFolder id, d => d.makeFolder (fileName id)
  | .removal, _ => none

/-- An empty directory after events, one after the other. -/
def after (events : List Event) : Directory := events.foldl (fun d e => e.apply d) (some [])

/-! ## Tidy directories -/

/-- Nothing stands in the directory but under the names of records. -/
def IsTidy (d : Directory) : Prop := ∀ e ∈ d.getD [], ∃ id, e.1 = fileName id

variable {d : Directory} {id nonce name : String} {r : Snapshot} {cut : Option Nat}

theorem isTidy_none : IsTidy none := nofun

theorem isTidy_empty : IsTidy (some []) := nofun

theorem IsTidy.set (h : d.IsTidy) (id : String) (e : Entry) : (d.set (fileName id) e).IsTidy := by
  cases d with
  | none => exact isTidy_none
  | some entries =>
    intro e' he'
    obtain rfl | he' := List.mem_cons.mp he'
    · exact ⟨id, rfl⟩
    · exact h e' (List.mem_filter.mp he').1

theorem IsTidy.ne_stagingName (h : d.IsTidy) (id nonce : String) :
    ∀ e ∈ d.getD [], e.1 ≠ stagingName id nonce := by
  intro e he
  obtain ⟨id', he'⟩ := h e he
  rw [he']
  exact (stagingName_ne_fileName id nonce id').symm

theorem IsTidy.not_tmp (h : d.IsTidy) : ∀ e ∈ d.getD [], ¬ ".tmp".toList <:+ e.1.toList := by
  rintro e he ⟨start, hstart⟩
  obtain ⟨id, hid⟩ := h e he
  have hlast := congrArg List.getLast? hstart
  rw [hid] at hlast
  simp [fileName, List.getLast?_append, List.getLast?_cons] at hlast

/-! ## Unused names -/

theorem remove_of_unused (h : ∀ e ∈ d.getD [], e.1 ≠ name) : d.remove name = d := by
  cases d with
  | none => rfl
  | some entries =>
    refine congrArg some (List.filter_eq_self.mpr fun e he => ?_)
    simp [h e he]

theorem remove_set_of_unused (h : ∀ e ∈ d.getD [], e.1 ≠ name) (text : String) :
    (d.set name (.file text)).remove name = d := by
  cases d with
  | none => rfl
  | some entries =>
    have hset : entries.filter (fun e => e.1 != name) = entries :=
      List.filter_eq_self.mpr fun e he => bne_iff_ne.mpr (h e he)
    have hremove := remove_of_unused h
    simp only [remove, set, Option.map_some, hset] at hremove ⊢
    rw [List.filter_cons_of_neg (by simp)]
    exact hremove

theorem entry?_of_unused (h : ∀ e ∈ d.getD [], e.1 ≠ name) : d.entry? name = none := by
  cases d with
  | none => rfl
  | some entries =>
    refine List.lookup_eq_none_iff.mpr fun e he => ?_
    simpa using (h e he).symm

/-! ## Putting a record -/

/-- Nothing keeps the record from its place: the id is one, the directory is there, the names are not
too long, no folder stands in the place, and writing does not fail under way. -/
structure Admits (cut : Option Nat) (nonce : String) (r : Snapshot) (d : Directory) : Prop where
  isId : isId r.id = true
  isSome : d.isSome = true
  fits : (stagingName r.id nonce).utf8ByteSize ≤ maxName
  not_folder : d.entry? (fileName r.id) ≠ some .folder
  not_cut : cut = none

theorem utf8ByteSize_fileName_le (h : (stagingName id nonce).utf8ByteSize ≤ maxName) :
    (fileName id).utf8ByteSize ≤ maxName := by
  rw [utf8ByteSize_stagingName] at h
  rw [utf8ByteSize_fileName]
  omega

theorem rename_set (hthere : d.isSome = true) (h : ∀ e ∈ d.getD [], e.1 ≠ name) {target : String}
    (htarget : target ≠ name) (hsize : target.utf8ByteSize ≤ maxName) (text : String) :
    (d.set name (.file text)).rename name target =
      if d.entry? target = some .folder then (false, d.set name (.file text))
      else (true, d.set target (.file text)) := by
  have hwritten : entry? name (d.set name (.file text)) = some (.file text) := by
    rw [entry?_set _ _ _ _ hthere, if_pos rfl]
  have hplace : entry? target (d.set name (.file text)) = d.entry? target := by
    rw [entry?_set _ _ _ _ hthere, if_neg htarget]
  simp only [rename, hwritten, hplace, Nat.not_lt.mpr hsize, decide_false, Bool.false_or,
    beq_iff_eq, remove_set_of_unused h]

theorem write_of_unused (hthere : d.isSome = true) (h : ∀ e ∈ d.getD [], e.1 ≠ name)
    (hsize : name.utf8ByteSize ≤ maxName) (cut : Option Nat) (text : String) :
    d.write cut name text = match cut with
      | none => (true, d.set name (.file text))
      | some n => (false, d.set name (.file (String.ofList (text.toList.take n)))) := by
  have hnone : d.isNone = false := by rw [← Option.not_isSome, hthere]; rfl
  simp only [write, hnone, Nat.not_lt.mpr hsize, entry?_of_unused h]
  rfl

theorem put_of_admits (h : d.IsTidy) (hd : d.Admits cut nonce r) :
    put cut nonce r d = (.ok (), d.set (fileName r.id) (.file (recordText r))) := by
  obtain ⟨hid, hthere, hsize, hfolder, rfl⟩ := hd
  have hunused := h.ne_stagingName r.id nonce
  have hne : fileName r.id ≠ stagingName r.id nonce := (stagingName_ne_fileName r.id nonce r.id).symm
  simp only [put, checkId_eq_ok.mpr hid, write_of_unused hthere hunused hsize,
    rename_set hthere hunused hne (utf8ByteSize_fileName_le hsize), if_neg hfolder]

theorem put_of_not_admits (h : d.IsTidy) (hd : ¬ d.Admits cut nonce r) :
    ∃ f, put cut nonce r d = (.error f, d) := by
  have hunused := h.ne_stagingName r.id nonce
  have hne : fileName r.id ≠ stagingName r.id nonce := (stagingName_ne_fileName r.id nonce r.id).symm
  cases hid : isId r.id with
  | false =>
    exact ⟨_, by rw [put, checkId_eq_error hid]⟩
  | true =>
    refine ⟨.internal, ?_⟩
    simp only [put, checkId_eq_ok.mpr hid]
    by_cases hwrite : d.isSome = true ∧ (stagingName r.id nonce).utf8ByteSize ≤ maxName
    · obtain ⟨hthere, hsize⟩ := hwrite
      rw [write_of_unused hthere hunused hsize]
      cases cut with
      | some n =>
        -- what was written before the failure is removed
        simp only [remove_set_of_unused hunused]
      | none =>
        have hfolder : d.entry? (fileName r.id) = some .folder := by
          by_contra hfolder
          exact hd ⟨hid, hthere, hsize, hfolder, rfl⟩
        simp only [rename_set hthere hunused hne (utf8ByteSize_fileName_le hsize), if_pos hfolder,
          remove_set_of_unused hunused]
    · -- nothing was written
      have hfail : d.write cut (stagingName r.id nonce) (recordText r) = (false, d) := by
        refine if_pos ?_
        rw [Bool.or_eq_true, Bool.or_eq_true, decide_eq_true_eq]
        left
        cases hthere : d.isSome with
        | false => exact Or.inl (by rw [← Option.not_isSome, hthere]; rfl)
        | true => exact Or.inr (Nat.lt_of_not_le fun hsize => hwrite ⟨hthere, hsize⟩)
      simp only [hfail, remove_of_unused hunused]

/-! ## Every event keeps a directory tidy -/

theorem IsTidy.put (h : d.IsTidy) (cut : Option Nat) (nonce : String) (r : Snapshot) :
    (put cut nonce r d).2.IsTidy := by
  by_cases hd : d.Admits cut nonce r
  · rw [put_of_admits h hd]
    exact h.set r.id _
  · obtain ⟨f, hf⟩ := put_of_not_admits h hd
    rw [hf]
    exact h

theorem IsTidy.write (h : d.IsTidy) (cut : Option Nat) (id text : String) :
    (d.write cut (fileName id) text).2.IsTidy := by
  fun_cases Directory.write cut (fileName id) text d with
  | case1 => exact h
  | case2 => exact h.set id _
  | case3 => exact h.set id _

theorem IsTidy.makeFolder (h : d.IsTidy) (id : String) : (d.makeFolder (fileName id)).IsTidy := by
  unfold Directory.makeFolder
  split
  · exact h
  · exact h.set id _

theorem IsTidy.apply (h : d.IsTidy) (e : Event) : (e.apply d).IsTidy := by
  cases e with
  | put cut nonce r => exact h.put cut nonce r
  | get id =>
    rw [Event.apply, run_getTask]
    exact h
  | write id text => exact h.write none id text
  | makeFolder id => exact h.makeFolder id
  | removal => exact isTidy_none

theorem IsTidy.foldl_apply (h : d.IsTidy) (events : List Event) :
    (events.foldl (fun d e => e.apply d) d).IsTidy := by
  induction events generalizing d with
  | nil => exact h
  | cons e events ih => exact ih (h.apply e)

theorem isTidy_after (events : List Event) : (after events).IsTidy :=
  isTidy_empty.foldl_apply events

/-! ## The record in its place -/

/-- The entries of two directories are the same, but for what stands under a name. -/
structure AgreeElsewhere (name : String) (d d' : Directory) : Prop where
  isSome : d'.isSome = d.isSome
  entries : ∀ other e, other ≠ name → ((other, e) ∈ d'.getD [] ↔ (other, e) ∈ d.getD [])

theorem agreeElsewhere_set (name : String) (e : Entry) (d : Directory) :
    d.AgreeElsewhere name (d.set name e) := by
  refine ⟨Option.isSome_map, fun other e' hother => ?_⟩
  cases d with
  | none => exact Iff.rfl
  | some entries => simp [set, hother]

theorem get_put (h : d.IsTidy) (hd : d.Admits cut nonce r) (hr : r.IsStorable)
    (hread : r.toJson.ReadsBack) : get r.id (put cut nonce r d).2 =
      if Snapshot.currentVersion < r.schemaVersion then .error .internal else .ok (some r) := by
  have hplace : entry? (fileName r.id) (put cut nonce r d).2 = some (.file (recordText r)) := by
    rw [put_of_admits h hd, entry?_set _ _ _ _ hd.isSome, if_pos rfl]
  rw [get_of_file hd.isId (utf8ByteSize_fileName_le hd.fits) hr hread hplace, checkVersion]
  split <;> rfl

/-- **Records are put whole or not at all, and nothing is left beside them.** After any events no
name in the directory ends like those beside the places of records. A record that nothing keeps from
its place is put there, no other entry is touched, and it is read back unless its layout is too new;
if anything does, putting it fails and the directory is as it was. Putting and getting a record use
the names of its own id only, which lead to no other directory: entries of other names have no
influence on them and stay as they are. -/
theorem put_atomic (events : List Event) :
    (∀ e ∈ (after events).getD [], ¬ ".tmp".toList <:+ e.1.toList) ∧
    (∀ cut nonce r, match put cut nonce r (after events) with
      | (.error _, d) => ¬ Admits cut nonce r (after events) ∧ d = after events
      | (.ok (), d) => Admits cut nonce r (after events) ∧
        (after events).AgreeElsewhere (fileName r.id) d ∧
        (r.IsStorable → r.toJson.ReadsBack → get r.id d =
          if Snapshot.currentVersion < r.schemaVersion then .error .internal else .ok (some r))) ∧
    (∀ cut nonce r, (putTask nonce r).run cut (after events) = put cut nonce r (after events) ∧
      (putTask nonce r).Within (isPutName r.id nonce) ∧
      (putTask nonce r).KeepsTo (isPutName r.id nonce) ∧
      (IsNonce nonce → ∀ name, isPutName r.id nonce name = true → IsEntryName name)) ∧
    ∀ cut id, (getTask id).run cut (after events) = (get id (after events), after events) ∧
      (getTask id).Within (isGetName id) ∧ (getTask id).KeepsTo (isGetName id) ∧
      ∀ name, isGetName id name = true → IsEntryName name := by
  have h := isTidy_after events
  refine ⟨h.not_tmp, fun cut nonce r => ?_, fun cut nonce r => ?_, fun cut id => ?_⟩
  · by_cases hd : (after events).Admits cut nonce r
    · have hget := get_put h hd
      rw [put_of_admits h hd] at hget ⊢
      exact ⟨hd, agreeElsewhere_set _ _ _, hget⟩
    · obtain ⟨f, hf⟩ := put_of_not_admits h hd
      rw [hf]
      exact ⟨hd, rfl⟩
  · have hwithin := within_putTask nonce r
    exact ⟨run_putTask cut nonce r _, hwithin, hwithin.keepsTo, fun hnonce _ =>
      isEntryName_of_isPutName hnonce⟩
  · have hwithin := within_getTask id
    exact ⟨run_getTask cut id _, hwithin, hwithin.keepsTo, fun _ => isEntryName_of_isGetName⟩

/-- A file that is no record stands in the place, and a folder beside it. -/
def mixedEvents : List Event := [.write "deals-1" "no record", .makeFolder "deals-2"]

theorem put_atomic_mixedEvents : ∃ d,
    put none "0123456789abcdef0123456789abcdef" (.mixedRecord none) (after mixedEvents) =
      (.ok (), d) ∧
    get "deals-1" d = .ok (some (.mixedRecord none)) := by
  have hd : (after mixedEvents).Admits none "0123456789abcdef0123456789abcdef" (.mixedRecord none) :=
    ⟨by decide, by decide, by decide, by decide, rfl⟩
  have hput := put_of_admits (isTidy_after mixedEvents) hd
  have hatomic := (put_atomic mixedEvents).2.1 none "0123456789abcdef0123456789abcdef"
    (.mixedRecord none)
  rw [hput] at hatomic
  exact ⟨_, hput, hatomic.2.2 (Snapshot.isStorable_mixedRecord none nofun)
    (StoreCall.readsBack_mixedRecord none nofun (show 1 < 1 <<< 32 by decide) "deals-1")⟩

end Directory

end ChartFeed
