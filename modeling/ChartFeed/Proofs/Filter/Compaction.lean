import ChartFeed.Filter.Edit
import ChartFeed.Proofs.Filter.GroupTree
import ChartFeed.Proofs.Filter.Warnings

/-!
# Filters without their empty groups

* `Group.isEmpty_iff` : a group is empty exactly when there is no condition in it or below it.
* `compact_eq` : compaction keeps the groups that are not empty and compacts each of them.
* `compact_eq_nil` : nothing is left exactly when there is no condition at all.
* `compile_compact` : what is left compiles to the same query.
* `map_pathless_validate_compact` : what is left has the same warnings, but for the paths in them.
-/

namespace ChartFeed.Filter

/-! ## Empty groups -/

theorem Group.allEmpty_eq (gs : List Group) : allEmpty gs = gs.all isEmpty := by
  induction gs with
  | nil => rfl
  | cons g gs ih => rw [allEmpty, ih, List.all_cons]

theorem Group.isEmpty_iff {g : Group} : g.isEmpty = true ↔ g.allConditions = [] := by
  induction g using Group.inductionOn with
  | mk id cs gs k ih =>
    rw [isEmpty, allEmpty_eq, allConditions_mk, Bool.and_eq_true, List.isEmpty_iff,
      List.all_eq_true, List.append_eq_nil_iff, List.flatMap_eq_nil_iff]
    exact and_congr_right fun _ => forall₂_congr fun g hg => ih g hg

/-! ## Compaction -/

theorem compact_eq (gs : List Group) :
    compact gs = (gs.filter fun g => !g.isEmpty).map Group.compacted := by
  induction gs with
  | nil => rfl
  | cons g gs ih =>
    rw [compact, ih, List.filter_cons]
    cases g.isEmpty <;> rfl

theorem compact_eq_nil {gs : List Group} : compact gs = [] ↔ Group.allConditionsOf gs = [] := by
  rw [compact_eq, List.map_eq_nil_iff, List.filter_eq_nil_iff, Group.allConditionsOf_eq,
    List.flatMap_eq_nil_iff]
  refine forall₂_congr fun g _ => ?_
  rw [← Group.isEmpty_iff, Bool.not_eq_true', Bool.not_eq_false]

/-! ## The query of what is left -/

variable (properties : List Property)

theorem Group.query?_of_isEmpty {g : Group} (h : g.isEmpty = true) : g.query? properties = none := by
  rw [query?_eq_none, isEmpty_iff.mp h]
  intro c hc
  cases hc

theorem filterMap_query?_compact {gs : List Group}
    (h : ∀ g ∈ gs, g.compacted.query? properties = g.query? properties) :
    (compact gs).filterMap (Group.query? properties) = gs.filterMap (Group.query? properties) := by
  induction gs with
  | nil => rfl
  | cons g gs ih =>
    have hgs := ih fun g' hg' => h g' (List.mem_cons_of_mem g hg')
    rw [compact, List.filterMap_cons (l := gs)]
    -- an empty group has no query, so dropping it loses none
    by_cases hg : g.isEmpty = true
    · rw [if_pos hg, Group.query?_of_isEmpty properties hg, hgs]
    · rw [if_neg hg, List.filterMap_cons, h g List.mem_cons_self, hgs]

theorem Group.query?_compacted (g : Group) : g.compacted.query? properties = g.query? properties := by
  induction g using Group.inductionOn with
  | mk id cs gs k ih => rw [compacted, query?_mk, query?_mk, filterMap_query?_compact properties ih]

/-- **Groups compile to the query that their compaction compiles to.** -/
theorem compile_compact (groups : List Group) :
    compile (compact groups) properties = compile groups properties := by
  have hwhole := (Group.whole groups).query?_compacted properties
  rw [compile_eq, compile_eq, ← hwhole]
  rfl

theorem compile_of_compact_eq_nil {groups : List Group} (h : compact groups = []) :
    compile groups properties = none := by
  rw [← compile_compact, h]
  rfl

/-! ## The warnings of what is left -/

/-- A warning without the path to its group. -/
def Warning.pathless (w : Warning) : Warning := { w with groupPath := [] }

theorem map_pathless_validateConditions (path path' : List Nat) (i : Nat) (cs : List Condition) :
    (validateConditions properties path i cs).map Warning.pathless =
      (validateConditions properties path' i cs).map Warning.pathless := by
  induction cs generalizing i with
  | nil => rfl
  | cons c cs ih =>
    rw [validateConditions, validateConditions]
    cases c.compile properties with
    | ok q => exact ih (i + 1)
    | error reason =>
      dsimp only
      rw [List.map_cons, List.map_cons, ih (i + 1)]
      rfl

theorem Group.validate_of_isEmpty {g : Group} (h : g.isEmpty = true) (path : List Nat) :
    g.validate properties path = [] := by
  induction g using Group.inductionOn generalizing path with
  | mk id cs gs k ih =>
    rw [isEmpty, allEmpty_eq, Bool.and_eq_true, List.isEmpty_iff, List.all_eq_true] at h
    rw [Group.validate, h.1, validateConditions, List.nil_append, validateGroups_eq,
      List.flatMap_eq_nil_iff]
    intro gi hgi
    have hg := List.mem_of_getElem? (List.mem_zipIdx_iff_getElem?.mp hgi)
    exact ih gi.1 hg (h.2 gi.1 hg) _

theorem map_pathless_validateGroups_compact {gs : List Group}
    (h : ∀ g ∈ gs, ∀ path path', (g.compacted.validate properties path).map Warning.pathless =
      (g.validate properties path').map Warning.pathless) (path path' : List Nat) (i j : Nat) :
    (validateGroups properties path i (compact gs)).map Warning.pathless =
      (validateGroups properties path' j gs).map Warning.pathless := by
  induction gs generalizing i j with
  | nil => rfl
  | cons g gs ih =>
    have hgs := ih fun g' hg' => h g' (List.mem_cons_of_mem g hg')
    rw [compact, validateGroups]
    by_cases hg : g.isEmpty = true
    · -- an empty group has no warnings, but the groups after it move up one index
      rw [if_pos hg, Group.validate_of_isEmpty properties hg, List.nil_append, hgs i (j + 1)]
    · rw [if_neg hg, validateGroups, List.map_append, List.map_append, hgs (i + 1) (j + 1),
        h g List.mem_cons_self _ (path' ++ [j])]

theorem Group.map_pathless_validate_compacted (g : Group) (path path' : List Nat) :
    (g.compacted.validate properties path).map Warning.pathless =
      (g.validate properties path').map Warning.pathless := by
  induction g using Group.inductionOn generalizing path path' with
  | mk id cs gs k ih =>
    rw [compacted, Group.validate, Group.validate, List.map_append, List.map_append,
      map_pathless_validateConditions properties path path',
      map_pathless_validateGroups_compact properties ih path path' 0 0]

/-- **Groups have the warnings that their compaction has**, but for the paths in them. -/
theorem map_pathless_validate_compact (groups : List Group) :
    (validate (compact groups) properties).map Warning.pathless =
      (validate groups properties).map Warning.pathless :=
  map_pathless_validateGroups_compact properties
    (fun g _ => g.map_pathless_validate_compacted properties) [] [] 0 0

end ChartFeed.Filter
