import ChartFeed.Proofs.Filter.Meaning
import Mathlib.Data.List.Basic

/-!
# Every comparison once and in its place

* `Condition.comparisons` : the comparisons that a condition asks for, from left to right.
* `Condition.leaves_of_compile` : they are the leaves of the query that the condition is given.
* `Group.leaves_query?` : the leaves of the query of a group are those of its accepted conditions.
* `leaves_compile` : no comparison is lost, repeated or moved by compiling groups.
-/

namespace ChartFeed.Filter

open Query (leaves)

variable (properties : List Property)

/-! ## Conditions -/

/-- The operator under which the values of a list are compared one by one: a select column holds a
single option, so it contains a value when it equals it. -/
def eachOperator : Family → Operator → Operator
  | .select, .contains => .equals
  | .select, .doesNotContain => .doesNotEqual
  | _, o => o

/-- The comparisons that a condition asks for: one for a value or where none is needed, the lower
and the upper bound of a range, and one for each value of a list. -/
def Condition.comparisons (c : Condition) : List Comparison :=
  let property := Text.trim c.property
  let r := resolve properties property
  let compared (o : Operator) (operand : Operand) : Comparison := ⟨property, r.key, o, operand⟩
  match Operator.parse? c.operator with
  | none => []
  | some o =>
    if o.isFlag then [compared o .flag]
    else if o.isRelative then [compared o .span]
    else if o = .between then
      match c.value, c.endValue with
      | some (.one start), some stop =>
        [compared .onOrAfter (.value start), compared .onOrBefore (.value stop)]
      | _, _ => []
    else
      match c.value with
      | none => []
      | some (.one v) => [compared o (.value v)]
      | some (.list vs) => vs.map fun v => compared (eachOperator r.family o) (.value v)

theorem eachOperator_of_spread? {family : Family} {o each : Operator} {k : Connective}
    (h : spread? family o = some (each, k)) : eachOperator family o = each := by
  unfold spread? at h
  split at h <;> cases h <;> rfl

theorem eachOperator_of_not_spread {family : Family} {o : Operator}
    (h : spread? family o = none) : eachOperator family o = o := by
  unfold eachOperator
  split <;> simp_all [spread?]

/-- **An accepted condition is compiled to the comparisons that it asks for.** -/
theorem Condition.leaves_of_compile {c : Condition} {q : Query}
    (h : c.compile properties = .ok q) : q.leaves = c.comparisons properties := by
  obtain ⟨o, hc⟩ := accepted_of_compile h
  have ho : Operator.parse? c.operator = some o := hc.operator
  unfold comparisons
  rw [ho]
  dsimp only
  cases hc.shape with
  | flag hflag =>
    rw [if_pos hflag]
    rfl
  | span hspan =>
    have hflag : o.isFlag = false := by cases o <;> simp_all [Operator.isRelative, Operator.isFlag]
    rw [if_neg (by simp [hflag]), if_pos hspan]
    rfl
  | range hrange hvalue hend =>
    subst hrange
    rw [hvalue, hend]
    rfl
  | plain htakes hrange hvalue =>
    obtain ⟨hflag, hspan⟩ : o.isFlag = false ∧ o.isRelative = false := by
      simpa [Operator.takesValue] using htakes
    rw [if_neg (by simp [hflag]), if_neg (by simp [hspan]), if_neg hrange]
    rcases hvalue with hvalue | ⟨hvalue, hspread⟩
    · rw [hvalue]
      rfl
    · rw [hvalue]
      dsimp only
      rw [eachOperator_of_not_spread hspread]
      rfl
  | @spread vs each k q hvalue hspread hjoin =>
    obtain ⟨hflag, hspan, hrange⟩ := not_flag_of_spread? hspread
    rw [if_neg (by simp [hflag]), if_neg (by simp [hspan]), if_neg hrange, hvalue]
    dsimp only
    rw [eachOperator_of_spread? hspread]
    have hleaves := Query.leaves_join k (vs.map
      (leafWith (Text.trim c.property) (resolve properties (Text.trim c.property)).key each))
    rw [hjoin, List.flatMap_map] at hleaves
    rw [List.map_eq_flatMap]
    exact hleaves

/-! ## Groups -/

theorem flatMap_filterMap {α β γ : Type} (f : α → Option β) (g : β → List γ) (xs : List α) :
    (xs.filterMap f).flatMap g = xs.flatMap fun x => (f x).elim [] g := by
  induction xs with
  | nil => rfl
  | cons x xs ih =>
    rw [List.filterMap_cons, List.flatMap_cons, ← ih]
    cases f x <;> rfl

theorem leaves_conditions (cs : List Condition) :
    (cs.filterMap (·.query? properties)).flatMap leaves =
      (cs.filter (·.isAccepted properties)).flatMap (·.comparisons properties) := by
  rw [List.flatMap_def, List.flatMap_def]
  congr 1
  exact map_filterMap_eq (fun _ _ => rfl) fun _ _ _ hq =>
    Condition.leaves_of_compile properties ((Condition.query?_eq_some properties).mp hq)

theorem Group.leaves_query? (g : Group) :
    (g.query? properties).elim [] leaves =
      (g.allConditions.filter (·.isAccepted properties)).flatMap (·.comparisons properties) := by
  induction g using Group.inductionOn with
  | mk id cs gs k ih =>
    have hsubgroups : (gs.filterMap (query? properties)).flatMap leaves = gs.flatMap fun g =>
        (g.allConditions.filter (·.isAccepted properties)).flatMap (·.comparisons properties) := by
      rw [flatMap_filterMap]
      exact List.flatMap_congr ih
    rw [query?_mk, Query.leaves_join, List.flatMap_append, leaves_conditions, hsubgroups,
      allConditions_mk, List.filter_append, List.flatMap_append, List.filter_flatMap,
      List.flatMap_assoc]

/-- **No comparison is lost, repeated or moved by compiling.** From left to right, the leaves of the
query are the comparisons that the accepted conditions ask for, in the order of the tree: the
conditions of a group come before those of its subgroups, and groups come as they are listed. -/
theorem leaves_compile (groups : List Group) :
    (compile groups properties).elim [] leaves =
      ((Group.allConditionsOf groups).filter (·.isAccepted properties)).flatMap
        (·.comparisons properties) := by
  rw [← Group.allConditions_whole, ← Group.leaves_query?, compile_eq]
  cases (Group.whole groups).query? properties with
  | none => rfl
  | some q => exact Query.leaves_flatten q

end ChartFeed.Filter
