import ChartFeed.Proofs.Edit.Path
import ChartFeed.Proofs.Filter.Compaction

/-!
# Which groups are left by compaction

* `IsPruning` : what is left of groups when those that fail a test are dropped; the groups that are
  left are told apart by the paths that they come from.
* `keptIndex`, `origin` : the index and the path that a group of the compacted groups comes from.
* `groupAt?_compact` : what stands at a path is the compacted group of the path that it comes from.
* `compact_eq_self_iff` : groups are left as they are exactly when none of them is empty.
* `compact_prunes` : just the groups with a condition at or below them are left.
-/

namespace ChartFeed.Filter

/-- What is left of groups when those that fail a test are dropped with all below them. Every path
comes from a path of the groups as they were: just the groups that pass the test are left, each with
its id, its conditions and its connective, in the same order and below the group that its parent
comes from. -/
structure IsPruning (keep : Group → Prop) (groups left : List Group)
    (origin : List Nat → List Nat) : Prop where
  heading : ∀ path, (groupAt? left path).map Group.heading =
    (groupAt? groups (origin path)).map Group.heading
  kept : ∀ path g, groupAt? groups path = some g →
    (keep g ↔ ∃ path', (groupAt? left path').isSome = true ∧ origin path' = path)
  ordered : ∀ path path', List.Lex (· < ·) path path' →
    List.Lex (· < ·) (origin path) (origin path')
  top : origin [] = []
  parent : ∀ path i, ∃ j, origin (path ++ [i]) = origin path ++ [j]

/-! ## Indices -/

/-- The index among groups of the one that has an index among those that are not empty. -/
def keptIndex : List Group → Nat → Nat
  | [], i => i
  | g :: gs, 0 => if g.isEmpty then keptIndex gs 0 + 1 else 0
  | g :: gs, i + 1 => keptIndex gs (if g.isEmpty then i + 1 else i) + 1

theorem keptIndex_of_isEmpty {g : Group} (hg : g.isEmpty = true) (gs : List Group) (i : Nat) :
    keptIndex (g :: gs) i = keptIndex gs i + 1 := by
  cases i <;> simp [keptIndex, hg]

theorem keptIndex_zero {g : Group} (hg : g.isEmpty = false) (gs : List Group) :
    keptIndex (g :: gs) 0 = 0 := by
  simp [keptIndex, hg]

theorem keptIndex_succ {g : Group} (hg : g.isEmpty = false) (gs : List Group) (i : Nat) :
    keptIndex (g :: gs) (i + 1) = keptIndex gs i + 1 := by
  simp [keptIndex, hg]

theorem getElem?_compact (gs : List Group) (i : Nat) :
    (compact gs)[i]? = gs[keptIndex gs i]?.map Group.compacted := by
  induction gs generalizing i with
  | nil => rfl
  | cons g gs ih =>
    rw [compact]
    cases hg : g.isEmpty with
    | true => rw [if_pos rfl, keptIndex_of_isEmpty hg, List.getElem?_cons_succ, ih]
    | false =>
      rw [if_neg Bool.false_ne_true]
      cases i with
      | zero => rw [keptIndex_zero hg]; rfl
      | succ i =>
        rw [keptIndex_succ hg, List.getElem?_cons_succ, List.getElem?_cons_succ, ih]

theorem isEmpty_of_getElem?_keptIndex {gs : List Group} {i : Nat} {t : Group}
    (h : gs[keptIndex gs i]? = some t) : t.isEmpty = false := by
  induction gs generalizing i with
  | nil => cases h
  | cons g gs ih =>
    cases hg : g.isEmpty with
    | true =>
      rw [keptIndex_of_isEmpty hg, List.getElem?_cons_succ] at h
      exact ih h
    | false =>
      cases i with
      | zero =>
        rw [keptIndex_zero hg] at h
        cases h
        exact hg
      | succ i =>
        rw [keptIndex_succ hg, List.getElem?_cons_succ] at h
        exact ih h

theorem exists_keptIndex {gs : List Group} {i : Nat} {t : Group} (h : gs[i]? = some t)
    (ht : t.isEmpty = false) : ∃ i', keptIndex gs i' = i := by
  induction gs generalizing i with
  | nil => cases h
  | cons g gs ih =>
    cases i with
    | zero =>
      cases h
      exact ⟨0, keptIndex_zero ht gs⟩
    | succ i =>
      rw [List.getElem?_cons_succ] at h
      obtain ⟨i', rfl⟩ := ih h
      cases hg : g.isEmpty with
      | true => exact ⟨i', keptIndex_of_isEmpty hg gs i'⟩
      | false => exact ⟨i' + 1, keptIndex_succ hg gs i'⟩

theorem keptIndex_lt_keptIndex (gs : List Group) {i j : Nat} (h : i < j) :
    keptIndex gs i < keptIndex gs j := by
  induction gs generalizing i j with
  | nil => exact h
  | cons g gs ih =>
    cases hg : g.isEmpty with
    | true =>
      rw [keptIndex_of_isEmpty hg, keptIndex_of_isEmpty hg]
      exact Nat.succ_lt_succ (ih h)
    | false =>
      cases j with
      | zero => omega
      | succ j =>
        rw [keptIndex_succ hg]
        cases i with
        | zero =>
          rw [keptIndex_zero hg]
          exact Nat.succ_pos _
        | succ i =>
          rw [keptIndex_succ hg]
          exact Nat.succ_lt_succ (ih (Nat.lt_of_succ_lt_succ h))

/-! ## Paths -/

/-- The path among groups that a path among the compacted ones comes from. -/
def origin : List Group → List Nat → List Nat
  | _, [] => []
  | gs, i :: path =>
    keptIndex gs i :: origin (gs[keptIndex gs i]?.elim [] Group.subgroups) path

theorem origin_cons {gs : List Group} {i : Nat} {g : Group} (h : gs[keptIndex gs i]? = some g)
    (path : List Nat) : origin gs (i :: path) = keptIndex gs i :: origin g.subgroups path := by
  rw [origin, h, Option.elim_some]

theorem origin_append (gs : List Group) (path : List Nat) (i : Nat) :
    ∃ j, origin gs (path ++ [i]) = origin gs path ++ [j] := by
  induction path generalizing gs with
  | nil => exact ⟨_, rfl⟩
  | cons k path ih =>
    obtain ⟨j, hj⟩ := ih (gs[keptIndex gs k]?.elim [] Group.subgroups)
    exact ⟨j, by rw [List.cons_append, origin, hj, origin, List.cons_append]⟩

theorem origin_lex {gs : List Group} {path path' : List Nat} (h : List.Lex (· < ·) path path') :
    List.Lex (· < ·) (origin gs path) (origin gs path') := by
  induction h generalizing gs with
  | nil => exact .nil
  | cons _ ih => exact .cons ih
  | rel h => exact .rel (keptIndex_lt_keptIndex gs h)

/-! ## What stands there -/

namespace Group

theorem heading_compacted (g : Group) : g.compacted.heading = g.heading := by
  cases g
  rfl

theorem subgroups_compacted (g : Group) : g.compacted.subgroups = compact g.subgroups := by
  cases g
  rfl

theorem flatMap_allConditions_compact {gs : List Group}
    (h : ∀ g ∈ gs, g.compacted.allConditions = g.allConditions) :
    (compact gs).flatMap allConditions = gs.flatMap allConditions := by
  induction gs with
  | nil => rfl
  | cons g gs ih =>
    have hgs := ih fun g' hg' => h g' (List.mem_cons_of_mem g hg')
    rw [compact, List.flatMap_cons]
    by_cases hg : g.isEmpty = true
    · rw [if_pos hg, hgs, isEmpty_iff.mp hg, List.nil_append]
    · rw [if_neg hg, List.flatMap_cons, hgs, h g List.mem_cons_self]

theorem allConditions_compacted (g : Group) : g.compacted.allConditions = g.allConditions := by
  induction g using inductionOn with
  | mk id cs gs k ih =>
    rw [compacted, allConditions_mk, allConditions_mk, flatMap_allConditions_compact ih]

theorem isEmpty_eq_false_iff {g : Group} : g.isEmpty = false ↔ g.allConditions ≠ [] := by
  rw [← Bool.not_eq_true, isEmpty_iff]

theorem isEmpty_compacted (g : Group) : g.compacted.isEmpty = g.isEmpty := by
  rw [Bool.eq_iff_iff, isEmpty_iff, isEmpty_iff, allConditions_compacted]

theorem descend?_compacted (g : Group) (path : List Nat) :
    g.compacted.descend? path = (g.descend? (origin g.subgroups path)).map compacted := by
  induction path generalizing g with
  | nil => rfl
  | cons i path ih =>
    rw [descend?_cons, subgroups_compacted, getElem?_compact]
    cases hg : g.subgroups[keptIndex g.subgroups i]? with
    | none => rw [origin, descend?_cons, hg]; rfl
    | some g' =>
      rw [origin_cons hg, descend?_cons, hg]
      exact ih g'

theorem isEmpty_of_descend? {g t : Group} {path : List Nat} (h : g.descend? path = some t)
    (ht : t.isEmpty = false) : g.isEmpty = false := by
  induction path generalizing g with
  | nil =>
    cases h
    exact ht
  | cons i path ih =>
    rw [descend?_cons] at h
    obtain ⟨g', hg', ht'⟩ := Option.bind_eq_some_iff.mp h
    obtain ⟨c, hc⟩ := List.exists_mem_of_ne_nil _ (isEmpty_eq_false_iff.mp (ih ht'))
    obtain ⟨id, cs, gs, k⟩ := g
    rw [isEmpty_eq_false_iff, allConditions_mk]
    exact List.ne_nil_of_mem (List.mem_append_right cs
      (List.mem_flatMap.mpr ⟨g', List.mem_of_getElem? hg', hc⟩))

end Group

/-- **What stands at a path is the compacted group of the path that it comes from.** -/
theorem groupAt?_compact (gs : List Group) (path : List Nat) :
    groupAt? (compact gs) path = (groupAt? gs (origin gs path)).map Group.compacted := by
  cases path with
  | nil => rfl
  | cons i path => exact Group.descend?_compacted (.whole gs) (i :: path)

theorem isEmpty_of_groupAt?_origin {gs : List Group} {path : List Nat} {g : Group}
    (h : groupAt? gs (origin gs path) = some g) : g.isEmpty = false := by
  induction path generalizing gs with
  | nil => cases h
  | cons i path ih =>
    rw [origin] at h
    obtain ⟨g', hg', ht⟩ := groupAt?_cons_eq_some.mp h
    rw [hg', Option.elim_some] at ht
    cases path with
    | nil =>
      cases ht
      exact isEmpty_of_getElem?_keptIndex hg'
    | cons j path => exact ih ht

theorem exists_origin {gs : List Group} {path : List Nat} {g : Group}
    (h : groupAt? gs path = some g) (hg : g.isEmpty = false) : ∃ path', origin gs path' = path := by
  induction path generalizing gs with
  | nil => cases h
  | cons i path ih =>
    obtain ⟨g', hg', ht⟩ := groupAt?_cons_eq_some.mp h
    -- the group at the first index is not empty either, so it is left
    obtain ⟨i', rfl⟩ := exists_keptIndex hg' (Group.isEmpty_of_descend? ht hg)
    cases path with
    | nil => exact ⟨[i'], rfl⟩
    | cons j path =>
      have hbelow : groupAt? g'.subgroups (j :: path) = some g := ht
      obtain ⟨path', hpath'⟩ := ih hbelow
      exact ⟨i' :: path', by rw [origin_cons hg', hpath']⟩

theorem isEmpty_of_groupAt?_compact {gs : List Group} {path : List Nat} {g : Group}
    (h : groupAt? (compact gs) path = some g) : g.isEmpty = false := by
  rw [groupAt?_compact] at h
  obtain ⟨g', hg', rfl⟩ := Option.map_eq_some_iff.mp h
  rw [Group.isEmpty_compacted]
  exact isEmpty_of_groupAt?_origin hg'

theorem isPruning_compact (gs : List Group) :
    IsPruning (fun g => g.allConditions ≠ []) gs (compact gs) (origin gs) where
  heading path := by
    rw [groupAt?_compact, Option.map_map]
    exact congrArg (Option.map · _) (funext Group.heading_compacted)
  kept path g hg := by
    rw [← Group.isEmpty_eq_false_iff]
    constructor
    · intro hkeep
      obtain ⟨path', hpath'⟩ := exists_origin hg hkeep
      refine ⟨path', ?_, hpath'⟩
      rw [groupAt?_compact, hpath', hg]
      rfl
    · rintro ⟨path', -, rfl⟩
      exact isEmpty_of_groupAt?_origin hg
  ordered _ _ := origin_lex
  top := rfl
  parent := origin_append gs

/-! ## Groups that are left as they are -/

theorem compact_eq_self_of {gs : List Group}
    (h : ∀ g ∈ gs, g.isEmpty = false ∧ g.compacted = g) : compact gs = gs := by
  have hall : (gs.filter fun g => !g.isEmpty) = gs := by
    rw [List.filter_eq_self]
    intro g hg
    rw [(h g hg).1, Bool.not_false]
  rw [compact_eq, hall, List.map_congr_left fun g hg => (h g hg).2, List.map_id']

theorem Group.compacted_eq_self {g : Group}
    (h : ∀ path t, groupAt? g.subgroups path = some t → t.isEmpty = false) : g.compacted = g := by
  induction g using Group.inductionOn with
  | mk id cs gs k ih =>
    have hleads : ∀ g ∈ gs, ∀ path t, g.descend? path = some t → t.isEmpty = false := by
      intro g hg path t ht
      obtain ⟨i, hi⟩ := List.mem_iff_getElem?.mp hg
      exact h (i :: path) t (groupAt?_cons_eq_some.mpr ⟨g, hi, ht⟩)
    rw [compacted, compact_eq_self_of fun g hg => ⟨hleads g hg [] g rfl, ih g hg ?_⟩]
    intro path t ht
    cases path with
    | nil => cases ht
    | cons i path => exact hleads _ hg (i :: path) t ht

/-- **Groups are left as they are exactly when none of them is empty**, at any depth. -/
theorem compact_eq_self_iff {gs : List Group} :
    compact gs = gs ↔ ∀ path g, groupAt? gs path = some g → g.isEmpty = false := by
  constructor
  · intro h path g hg
    rw [← h] at hg
    exact isEmpty_of_groupAt?_compact hg
  · intro h
    have hwhole : (Group.whole gs).compacted = Group.whole gs := Group.compacted_eq_self h
    exact congrArg Group.subgroups hwhole

/-- **Compaction drops just the groups without a condition at or below them.** No group is empty
then, and those that are left keep their order, their parents, their ids, their conditions and their
connectives. Groups are left as they are exactly when none of them is empty, so compacting again
changes nothing, and nothing is left exactly when there is no condition at all. -/
theorem compact_prunes (gs : List Group) :
    (∀ path g, groupAt? (compact gs) path = some g → g.isEmpty = false) ∧
      IsPruning (fun g => g.allConditions ≠ []) gs (compact gs) (origin gs) ∧
      (compact gs = gs ↔ ∀ path g, groupAt? gs path = some g → g.isEmpty = false) ∧
      compact (compact gs) = compact gs ∧
      (compact gs = [] ↔ Group.allConditionsOf gs = []) := by
  have hleft : ∀ path g, groupAt? (compact gs) path = some g → g.isEmpty = false :=
    fun _ _ => isEmpty_of_groupAt?_compact
  exact ⟨hleft, isPruning_compact gs, compact_eq_self_iff, compact_eq_self_iff.mpr hleft,
    compact_eq_nil⟩

end ChartFeed.Filter
