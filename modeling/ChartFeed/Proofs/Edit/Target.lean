import ChartFeed.Filter.Edit
import ChartFeed.Proofs.Edit.Path

/-!
# Edits hit the addressed group

* `update_of_isTarget`, `removeGroup_of_isTarget` : an edit of an id takes the first group of the id
  in the order of the document; `update_of_isAbsent`, `removeGroup_of_isAbsent` that it fails if
  there is none.
* `removeCondition_eq_ok_iff`, `updateCondition_eq_ok_iff` : what is done to the conditions of that
  group.
* `edits_hit_target` : what each edit answers, and that all else stays as it is.
-/

namespace ChartFeed.Filter

/-! ## Updates -/

section update

variable {id : String} {edit : GroupEdit}

theorem Group.updateFirst?_eq (id : String) (edit : GroupEdit) (g : Group) :
    g.updateFirst? id edit =
      if g.id = id then some (edit g)
      else (updateFirstIn? id edit g.subgroups).map fun edited =>
        edited.map fun subgroups => { g with subgroups } := by
  cases g
  rfl

theorem updateFirstIn?_eq_none {groups : List Group}
    (h : ∀ g ∈ groups, g.updateFirst? id edit = none) : updateFirstIn? id edit groups = none := by
  induction groups with
  | nil => rfl
  | cons g groups ih =>
    rw [updateFirstIn?, h g List.mem_cons_self,
      ih fun g' hg' => h g' (List.mem_cons_of_mem g hg')]
    rfl

theorem Group.updateFirst?_of_isAbsent {g : Group} (h : IsAbsent id g.descend?) :
    g.updateFirst? id edit = none := by
  induction g using Group.inductionOn with
  | mk gid cs gs k ih =>
    obtain ⟨hroot, hbelow⟩ := isAbsent_descend?.mp h
    rw [updateFirst?_eq, if_neg hroot, updateFirstIn?_eq_none fun g hg =>
      ih g hg (isAbsent_groupAt?.mp hbelow g hg)]
    rfl

theorem updateFirstIn?_of_getElem? {groups : List Group} {i : Nat} {g : Group}
    {edited : Except EditError Group} {f : Group → Group → Group} (hg : groups[i]? = some g)
    (hbefore : ∀ j < i, ∀ g', groups[j]? = some g' → g'.updateFirst? id edit = none)
    (hedited : g.updateFirst? id edit = some (edited.map fun t => f t g)) :
    updateFirstIn? id edit groups = some (edited.map fun t => groups.modify i (f t)) := by
  induction groups generalizing i with
  | nil => cases hg
  | cons g' groups ih =>
    cases i with
    | zero =>
      cases hg
      rw [updateFirstIn?, hedited]
      cases edited <;> rfl
    | succ i =>
      rw [updateFirstIn?, hbefore 0 (Nat.succ_pos i) g' rfl,
        ih hg fun j hj g'' hg'' => hbefore (j + 1) (Nat.succ_lt_succ hj) g'' hg'']
      cases edited <;> rfl

theorem Group.updateFirst?_of_isFirst {g t : Group} {path : List Nat}
    (h : IsFirst id g.descend? path t) :
    g.updateFirst? id edit = some ((edit t).map fun t' => g.modifyAt (fun _ => t') path) := by
  induction path generalizing g with
  | nil =>
    cases h.leads
    rw [updateFirst?_eq, if_pos h.named]
    cases edit t <;> rfl
  | cons i path ih =>
    obtain ⟨hroot, hbelow⟩ := isFirst_descend?_cons.mp h
    obtain ⟨g', hg', hfirst, hbefore⟩ := isFirst_groupAt?_cons.mp hbelow
    rw [updateFirst?_eq, if_neg hroot,
      updateFirstIn?_of_getElem? hg'
        (fun j hj g'' hg'' => updateFirst?_of_isAbsent (hbefore j hj g'' hg''))
        (f := fun t' => modifyAt (fun _ => t') path) (ih hfirst)]
    cases edit t <;> rfl

theorem updateFirstIn?_of_isAbsent {groups : List Group} (h : IsAbsent id (groupAt? groups)) :
    updateFirstIn? id edit groups = none :=
  updateFirstIn?_eq_none fun g hg => Group.updateFirst?_of_isAbsent (isAbsent_groupAt?.mp h g hg)

theorem updateFirstIn?_of_isTarget {groups : List Group} {path : List Nat} {g : Group}
    (h : IsTarget groups id path g) :
    updateFirstIn? id edit groups = some ((edit g).map fun t => replaceAt t path groups) := by
  cases path with
  | nil => cases h.leads
  | cons i path =>
    obtain ⟨g', hg', hfirst, hbefore⟩ := isFirst_groupAt?_cons.mp h
    rw [updateFirstIn?_of_getElem? hg'
      (fun j hj g'' hg'' => Group.updateFirst?_of_isAbsent (hbefore j hj g'' hg''))
      (f := fun t' => Group.modifyAt (fun _ => t') path) (Group.updateFirst?_of_isFirst hfirst)]
    rfl

theorem updateFirstIn?_eq_none_iff {groups : List Group} :
    updateFirstIn? id edit groups = none ↔ IsAbsent id (groupAt? groups) := by
  refine ⟨fun h => ?_, updateFirstIn?_of_isAbsent⟩
  rcases isAbsent_or_isTarget groups id with habsent | ⟨path, g, htarget⟩
  · exact habsent
  · rw [updateFirstIn?_of_isTarget htarget] at h
    cases h

theorem update_of_isAbsent {groups : List Group} (h : IsAbsent id (groupAt? groups)) :
    update groups id edit = .error (.groupNotFound id) := by
  rw [update, updateFirstIn?_of_isAbsent h, Option.getD_none]

/-- **An update edits the first group of the id**, once, and puts the result in its place. -/
theorem update_of_isTarget {groups : List Group} {path : List Nat} {g : Group}
    (h : IsTarget groups id path g) :
    update groups id edit = (edit g).map fun t => replaceAt t path groups := by
  rw [update, updateFirstIn?_of_isTarget h, Option.getD_some]

theorem update_eq_error_iff {groups : List Group} {e : EditError} :
    update groups id edit = .error e ↔
      IsAbsent id (groupAt? groups) ∧ e = .groupNotFound id ∨
        ∃ path g, IsTarget groups id path g ∧ edit g = .error e := by
  constructor
  · intro h
    rcases isAbsent_or_isTarget groups id with habsent | ⟨path, g, htarget⟩
    · rw [update_of_isAbsent habsent] at h
      exact Or.inl ⟨habsent, (Except.error.inj h).symm⟩
    · refine Or.inr ⟨path, g, htarget, ?_⟩
      rw [update_of_isTarget htarget] at h
      cases hedit : edit g <;> rw [hedit] at h <;> cases h
      rfl
  · rintro (⟨habsent, rfl⟩ | ⟨path, g, htarget, hedit⟩)
    · exact update_of_isAbsent habsent
    · rw [update_of_isTarget htarget, hedit]
      rfl

theorem update_eq_ok_iff {groups groups' : List Group} :
    update groups id edit = .ok groups' ↔
      ∃ path g t, IsTarget groups id path g ∧ edit g = .ok t ∧
        groups' = replaceAt t path groups := by
  constructor
  · intro h
    rcases isAbsent_or_isTarget groups id with habsent | ⟨path, g, htarget⟩
    · rw [update_of_isAbsent habsent] at h
      cases h
    · rw [update_of_isTarget htarget] at h
      cases hedit : edit g with
      | error e =>
        rw [hedit] at h
        cases h
      | ok t =>
        rw [hedit] at h
        exact ⟨path, g, t, htarget, hedit, (Except.ok.inj h).symm⟩
  · rintro ⟨path, g, t, htarget, hedit, rfl⟩
    rw [update_of_isTarget htarget, hedit]
    rfl

end update

/-! ## Removing groups -/

section remove

variable {id : String}

theorem Group.cutBelow?_eq (id : String) (g : Group) :
    g.cutBelow? id = (cutFirst? id g.subgroups).map fun subgroups => { g with subgroups } := by
  cases g
  rfl

theorem cutFirst?_eq_none {groups : List Group}
    (h : ∀ g ∈ groups, g.id ≠ id ∧ g.cutBelow? id = none) : cutFirst? id groups = none := by
  induction groups with
  | nil => rfl
  | cons g groups ih =>
    obtain ⟨hroot, hbelow⟩ := h g List.mem_cons_self
    rw [cutFirst?, if_neg hroot, hbelow, ih fun g' hg' => h g' (List.mem_cons_of_mem g hg')]
    rfl

theorem Group.cutBelow?_of_isAbsent {g : Group} (h : IsAbsent id (groupAt? g.subgroups)) :
    g.cutBelow? id = none := by
  induction g using Group.inductionOn with
  | mk gid cs gs k ih =>
    have hnone : cutFirst? id gs = none := cutFirst?_eq_none fun g hg => by
      obtain ⟨hroot, hbelow⟩ := isAbsent_descend?.mp (isAbsent_groupAt?.mp h g hg)
      exact ⟨hroot, ih g hg hbelow⟩
    rw [cutBelow?_eq, hnone]
    rfl

theorem cutFirst?_of_getElem? {groups : List Group} {i : Nat} {g : Group}
    {f : List Group → List Group} (hg : groups[i]? = some g)
    (hbefore : ∀ j < i, ∀ g', groups[j]? = some g' → IsAbsent id g'.descend?)
    (hcut : ∀ after, cutFirst? id (g :: after) = some (f (g :: after))) :
    cutFirst? id groups = some (groups.modifyTailIdx i f) := by
  induction groups generalizing i with
  | nil => cases hg
  | cons g' groups ih =>
    cases i with
    | zero =>
      cases hg
      exact hcut groups
    | succ i =>
      obtain ⟨hroot, hbelow⟩ := isAbsent_descend?.mp (hbefore 0 (Nat.succ_pos i) g' rfl)
      rw [cutFirst?, if_neg hroot, Group.cutBelow?_of_isAbsent hbelow,
        ih hg fun j hj g'' hg'' => hbefore (j + 1) (Nat.succ_lt_succ hj) g'' hg'']
      rfl

theorem Group.cutBelow?_of_isFirst {g t : Group} {i : Nat} {path : List Nat}
    (h : IsFirst id (groupAt? g.subgroups) (i :: path) t) :
    g.cutBelow? id = some (g.cutAt (i :: path)) := by
  induction path generalizing g i with
  | nil =>
    obtain ⟨g', hg', hfirst, hbefore⟩ := isFirst_groupAt?_cons.mp h
    cases hfirst.leads
    rw [cutBelow?_eq, cutFirst?_of_getElem? (f := List.tail) hg' hbefore fun after => by
      rw [cutFirst?, if_pos hfirst.named]
      rfl]
    rw [← List.eraseIdx_eq_modifyTailIdx]
    rfl
  | cons j path ih =>
    obtain ⟨g', hg', hfirst, hbefore⟩ := isFirst_groupAt?_cons.mp h
    obtain ⟨hroot, hbelow⟩ := isFirst_descend?_cons.mp hfirst
    rw [cutBelow?_eq, cutFirst?_of_getElem? (f := List.modifyHead (cutAt (j :: path))) hg' hbefore
      fun after => by
        rw [cutFirst?, if_neg hroot, ih hbelow]
        rfl]
    rfl

theorem removeGroup_of_isAbsent {groups : List Group} (h : IsAbsent id (groupAt? groups)) :
    removeGroup groups id = .error (.groupNotFound id) := by
  have hcut : (Group.whole groups).cutBelow? id = none := Group.cutBelow?_of_isAbsent h
  rw [Group.cutBelow?_eq, Option.map_eq_none_iff] at hcut
  rw [removeGroup, show cutFirst? id groups = none from hcut]

/-- **Removing cuts out the first group of the id** with all below it. -/
theorem removeGroup_of_isTarget {groups : List Group} {path : List Nat} {g : Group}
    (h : IsTarget groups id path g) : removeGroup groups id = .ok (cutAt path groups) := by
  cases path with
  | nil => cases h.leads
  | cons i path =>
    have hcut := Group.cutBelow?_of_isFirst (g := .whole groups) h
    rw [Group.cutBelow?_eq] at hcut
    obtain ⟨left, hleft, hwhole⟩ := Option.map_eq_some_iff.mp hcut
    rw [removeGroup, show cutFirst? id groups = some left from hleft, cutAt, ← hwhole]

theorem removeGroup_eq_error_iff {groups : List Group} {e : EditError} :
    removeGroup groups id = .error e ↔
      IsAbsent id (groupAt? groups) ∧ e = .groupNotFound id := by
  constructor
  · intro h
    rcases isAbsent_or_isTarget groups id with habsent | ⟨path, g, htarget⟩
    · rw [removeGroup_of_isAbsent habsent] at h
      exact ⟨habsent, (Except.error.inj h).symm⟩
    · rw [removeGroup_of_isTarget htarget] at h
      cases h
  · rintro ⟨habsent, rfl⟩
    exact removeGroup_of_isAbsent habsent

theorem removeGroup_eq_ok_iff {groups groups' : List Group} :
    removeGroup groups id = .ok groups' ↔
      ∃ path g, IsTarget groups id path g ∧ groups' = cutAt path groups := by
  constructor
  · intro h
    rcases isAbsent_or_isTarget groups id with habsent | ⟨path, g, htarget⟩
    · rw [removeGroup_of_isAbsent habsent] at h
      cases h
    · rw [removeGroup_of_isTarget htarget] at h
      exact ⟨path, g, htarget, (Except.ok.inj h).symm⟩
  · rintro ⟨path, g, htarget, rfl⟩
    exact removeGroup_of_isTarget htarget

end remove

/-! ## Conditions of the addressed group -/

section conditions

variable {groups groups' : List Group} {id conditionId : String} {e : EditError}

theorem length_filter_ne_iff {cs : List Condition} :
    (cs.filter (·.id != conditionId)).length = cs.length ↔ ∀ c ∈ cs, c.id ≠ conditionId := by
  rw [List.length_filter_eq_length_iff]
  simp

theorem removeCondition_eq_error_iff :
    removeCondition groups id conditionId = .error e ↔
      IsAbsent id (groupAt? groups) ∧ e = .groupNotFound id ∨
        ∃ path g, IsTarget groups id path g ∧ (∀ c ∈ g.conditions, c.id ≠ conditionId) ∧
          e = .conditionNotFound conditionId := by
  rw [removeCondition, update_eq_error_iff]
  refine or_congr_right (exists_congr fun path => exists_congr fun g => and_congr_right fun _ => ?_)
  simp only [length_filter_ne_iff]
  split_ifs with hnone
  · rw [Except.error.injEq, eq_comm]
    exact (and_iff_right hnone).symm
  · exact ⟨(nomatch ·), fun h => absurd h.1 hnone⟩

theorem removeCondition_eq_ok_iff :
    removeCondition groups id conditionId = .ok groups' ↔
      ∃ path g, IsTarget groups id path g ∧ (∃ c ∈ g.conditions, c.id = conditionId) ∧
        groups' = replaceAt { g with conditions := g.conditions.filter (·.id != conditionId) }
          path groups := by
  rw [removeCondition, update_eq_ok_iff]
  simp only [length_filter_ne_iff]
  constructor
  · rintro ⟨path, g, t, htarget, ht, rfl⟩
    split_ifs at ht with hnone
    cases ht
    push Not at hnone
    exact ⟨path, g, htarget, hnone, rfl⟩
  · rintro ⟨path, g, htarget, ⟨c, hc, hid⟩, rfl⟩
    refine ⟨path, g, _, htarget, if_neg fun hnone => hnone c hc hid, rfl⟩

theorem updateFirstCondition?_eq_none_iff {edit : Condition → Condition} {cs : List Condition} :
    updateFirstCondition? conditionId edit cs = none ↔ ∀ c ∈ cs, c.id ≠ conditionId := by
  induction cs with
  | nil => simp [updateFirstCondition?]
  | cons c cs ih =>
    rw [updateFirstCondition?, List.forall_mem_cons, ← ih]
    split_ifs with hc
    · simp [hc]
    · simp [hc]

theorem updateFirstCondition?_append {edit : Condition → Condition} {before after : List Condition}
    {c : Condition} (hbefore : ∀ b ∈ before, b.id ≠ conditionId) (hc : c.id = conditionId) :
    updateFirstCondition? conditionId edit (before ++ c :: after) =
      some (before ++ edit c :: after) := by
  induction before with
  | nil => rw [List.nil_append, updateFirstCondition?, if_pos hc, List.nil_append]
  | cons b before ih =>
    rw [List.cons_append, updateFirstCondition?, if_neg (hbefore b List.mem_cons_self),
      ih fun b' hb' => hbefore b' (List.mem_cons_of_mem b hb')]
    rfl

theorem updateFirstCondition?_eq_some_iff {edit : Condition → Condition}
    {cs cs' : List Condition} :
    updateFirstCondition? conditionId edit cs = some cs' ↔
      ∃ before c after, cs = before ++ c :: after ∧ (∀ b ∈ before, b.id ≠ conditionId) ∧
        c.id = conditionId ∧ cs' = before ++ edit c :: after := by
  constructor
  · intro h
    induction cs generalizing cs' with
    | nil => cases h
    | cons c cs ih =>
      rw [updateFirstCondition?] at h
      split_ifs at h with hc
      · cases h
        exact ⟨[], c, cs, rfl, List.forall_mem_nil _, hc, rfl⟩
      · obtain ⟨rest, hrest, rfl⟩ := Option.map_eq_some_iff.mp h
        obtain ⟨before, c', after, rfl, hbefore, hc', rfl⟩ := ih hrest
        exact ⟨c :: before, c', after, rfl, List.forall_mem_cons.mpr ⟨hc, hbefore⟩, hc', rfl⟩
  · rintro ⟨before, c, after, rfl, hbefore, hc, rfl⟩
    exact updateFirstCondition?_append hbefore hc

theorem updateCondition_eq_error_iff {edit : Condition → Condition} :
    updateCondition groups id conditionId edit = .error e ↔
      IsAbsent id (groupAt? groups) ∧ e = .groupNotFound id ∨
        ∃ path g, IsTarget groups id path g ∧ (∀ c ∈ g.conditions, c.id ≠ conditionId) ∧
          e = .conditionNotFound conditionId := by
  rw [updateCondition, update_eq_error_iff]
  refine or_congr_right (exists_congr fun path => exists_congr fun g => and_congr_right fun _ => ?_)
  cases hcs : updateFirstCondition? conditionId edit g.conditions with
  | none =>
    constructor
    · rintro ⟨⟩
      exact ⟨updateFirstCondition?_eq_none_iff.mp hcs, rfl⟩
    · rintro ⟨-, rfl⟩
      rfl
  | some cs =>
    have hsome : ¬ ∀ c ∈ g.conditions, c.id ≠ conditionId := fun hnone => by
      rw [updateFirstCondition?_eq_none_iff.mpr hnone] at hcs
      cases hcs
    exact ⟨(nomatch ·), fun h => absurd h.1 hsome⟩

theorem updateCondition_eq_ok_iff {edit : Condition → Condition} :
    updateCondition groups id conditionId edit = .ok groups' ↔
      ∃ path g before c after, IsTarget groups id path g ∧
        g.conditions = before ++ c :: after ∧ (∀ b ∈ before, b.id ≠ conditionId) ∧
        c.id = conditionId ∧
        groups' = replaceAt { g with conditions := before ++ edit c :: after } path groups := by
  rw [updateCondition, update_eq_ok_iff]
  constructor
  · rintro ⟨path, g, t, htarget, ht, rfl⟩
    split at ht
    · rename_i cs hcs
      cases ht
      obtain ⟨before, c, after, hconditions, hbefore, hc, rfl⟩ :=
        updateFirstCondition?_eq_some_iff.mp hcs
      exact ⟨path, g, before, c, after, htarget, hconditions, hbefore, hc, rfl⟩
    · cases ht
  · rintro ⟨path, g, before, c, after, htarget, hconditions, hbefore, hc, rfl⟩
    refine ⟨path, g, _, htarget, ?_, rfl⟩
    rw [hconditions, updateFirstCondition?_append hbefore hc]

end conditions

/-! ## All edits -/

/-- Edits of an id take the first group of the id, and no other. -/
structure HitTarget (groups : List Group) (id : String) : Prop where
  /-- An update finds no group exactly when there is none of the id. -/
  update_unfound : ∀ edit : GroupEdit,
    updateFirstIn? id edit groups = none ↔ IsAbsent id (groupAt? groups)
  /-- It fails because it finds no group, or because the edit fails there, with its error. -/
  update_error : ∀ (edit : GroupEdit) (e : EditError), update groups id edit = .error e ↔
    IsAbsent id (groupAt? groups) ∧ e = .groupNotFound id ∨
      ∃ path g, IsTarget groups id path g ∧ edit g = .error e
  /-- Otherwise the group is replaced by its edited version. -/
  update_ok : ∀ (edit : GroupEdit) (groups' : List Group), update groups id edit = .ok groups' ↔
    ∃ path g t, IsTarget groups id path g ∧ edit g = .ok t ∧ groups' = replaceAt t path groups
  /-- A removal fails because there is no group of the id. -/
  removeGroup_error : ∀ e : EditError, removeGroup groups id = .error e ↔
    IsAbsent id (groupAt? groups) ∧ e = .groupNotFound id
  /-- Otherwise the group is cut out. -/
  removeGroup_ok : ∀ groups' : List Group, removeGroup groups id = .ok groups' ↔
    ∃ path g, IsTarget groups id path g ∧ groups' = cutAt path groups
  /-- Removing conditions fails because there is no such group or condition. -/
  removeCondition_error : ∀ (conditionId : String) (e : EditError),
    removeCondition groups id conditionId = .error e ↔
      IsAbsent id (groupAt? groups) ∧ e = .groupNotFound id ∨
        ∃ path g, IsTarget groups id path g ∧ (∀ c ∈ g.conditions, c.id ≠ conditionId) ∧
          e = .conditionNotFound conditionId
  /-- Otherwise all conditions of the id are removed from the group. -/
  removeCondition_ok : ∀ (conditionId : String) (groups' : List Group),
    removeCondition groups id conditionId = .ok groups' ↔
      ∃ path g, IsTarget groups id path g ∧ (∃ c ∈ g.conditions, c.id = conditionId) ∧
        groups' = replaceAt { g with conditions := g.conditions.filter (·.id != conditionId) }
          path groups
  /-- Updating a condition fails because there is no such group or condition. -/
  updateCondition_error : ∀ (conditionId : String) (edit : Condition → Condition) (e : EditError),
    updateCondition groups id conditionId edit = .error e ↔
      IsAbsent id (groupAt? groups) ∧ e = .groupNotFound id ∨
        ∃ path g, IsTarget groups id path g ∧ (∀ c ∈ g.conditions, c.id ≠ conditionId) ∧
          e = .conditionNotFound conditionId
  /-- Otherwise the first condition of the id is edited in the group. -/
  updateCondition_ok : ∀ (conditionId : String) (edit : Condition → Condition)
    (groups' : List Group), updateCondition groups id conditionId edit = .ok groups' ↔
      ∃ path g before c after, IsTarget groups id path g ∧
        g.conditions = before ++ c :: after ∧ (∀ b ∈ before, b.id ≠ conditionId) ∧
        c.id = conditionId ∧
        groups' = replaceAt { g with conditions := before ++ edit c :: after } path groups
  /-- Where a group is replaced, all that does not stand below it stays at its path. -/
  replaced : ∀ (path : List Nat) (g t : Group), IsTarget groups id path g →
    (∀ s, groupAt? (replaceAt t path groups) (path ++ s) = t.descend? s) ∧
      ∀ q, ¬ path <+: q → (groupAt? (replaceAt t path groups) q).map Group.heading =
        (groupAt? groups q).map Group.heading
  /-- Where a group is cut out, those after it move up by one, and all else stays at its path. -/
  cut : ∀ (path : List Nat) (i : Nat) (g : Group), IsTarget groups id (path ++ [i]) g →
    (∀ j s, i ≤ j → groupAt? (cutAt (path ++ [i]) groups) (path ++ j :: s) =
        groupAt? groups (path ++ (j + 1) :: s)) ∧
      ∀ q, (∀ j s, q = path ++ j :: s → j < i) →
        (groupAt? (cutAt (path ++ [i]) groups) q).map Group.heading =
          (groupAt? groups q).map Group.heading

/-- **All edits hit the same single group and nothing else.** Among groups of one id, at whatever
depth, the first in the order of the document is edited or cut out; an edit fails exactly when there
is none, or when it fails of itself there. -/
theorem edits_hit_target (groups : List Group) (id : String) : HitTarget groups id where
  update_unfound _ := updateFirstIn?_eq_none_iff
  update_error _ _ := update_eq_error_iff
  update_ok _ _ := update_eq_ok_iff
  removeGroup_error _ := removeGroup_eq_error_iff
  removeGroup_ok _ := removeGroup_eq_ok_iff
  removeCondition_error _ _ := removeCondition_eq_error_iff
  removeCondition_ok _ _ := removeCondition_eq_ok_iff
  updateCondition_error _ _ _ := updateCondition_eq_error_iff
  updateCondition_ok _ _ _ := updateCondition_eq_ok_iff
  replaced _ _ t htarget :=
    ⟨groupAt?_replaceAt_append htarget.leads t, fun _ hq => heading_groupAt?_replaceAt t hq⟩
  cut _ _ _ _ := ⟨fun _ s hij => groupAt?_cutAt_of_le hij s, fun _ hq => heading_groupAt?_cutAt hq⟩

/-- A group comes before its later siblings, and so do the groups below it. -/
example : removeGroup [⟨"a", [], [⟨"b", [], [], .and⟩], .and⟩, ⟨"b", [], [], .or⟩] "b" =
    .ok [⟨"a", [], [], .and⟩, ⟨"b", [], [], .or⟩] := rfl

end ChartFeed.Filter
