import ChartFeed.Proofs.Filter.Leaves
import ChartFeed.Proofs.Filter.Regrouping
import ChartFeed.Proofs.Filter.Warnings

/-!
# Negated groups

* `Operator.complement?` : the operator that says the opposite, for those that have one.
* `Group.dual` : every connective is exchanged, and every operator is replaced by its complement;
  `Query.dual` does so in a query.
* `Condition.compile_dual`, `compile_dual` : the dual is compiled to the dual query, and the same
  conditions are rejected.
* `Query.holds_dual` : the dual of a query holds when the query does not.
* `holds_compile_dual` : the dual of a group asks for the opposite of what the group asks for.
-/

namespace ChartFeed.Filter

/-! ## Complements -/

namespace Connective

def dual : Connective → Connective
  | .and => .or
  | .or => .and

/-- The laws of De Morgan. -/
theorem combine_dual (k : Connective) (bs : List Bool) :
    k.dual.combine (bs.map not) = !k.combine bs := by
  cases k <;> simp [dual, combine, List.any_map, List.all_map, List.not_all_eq_any_not,
    List.not_any_eq_all_not]

end Connective

/-- The operator that holds of a property exactly when the given one does not. -/
def Operator.complement? : Operator → Option Operator
  | .equals => some .doesNotEqual
  | .doesNotEqual => some .equals
  | .contains => some .doesNotContain
  | .doesNotContain => some .contains
  | .isEmpty => some .isNotEmpty
  | .isNotEmpty => some .isEmpty
  | _ => none

def Comparison.dual (c : Comparison) : Comparison :=
  { c with operator := c.operator.complement?.getD c.operator }

/-- Comparisons with complementary operators, alike in all else, have opposite truths. -/
def IsOpposed (truth : Comparison → Bool) : Prop :=
  ∀ (property : String) (key : Key) (operand : Operand) (o o' : Operator),
    o.complement? = some o' →
      truth ⟨property, key, o', operand⟩ = !truth ⟨property, key, o, operand⟩

/-! ## Dual queries -/

namespace Query

mutual

/-- Conjunctions become disjunctions and the reverse, and comparisons are complemented. -/
def dual : Query → Query
  | .all qs => .any (dualAll qs)
  | .any qs => .all (dualAll qs)
  | .leaf c => .leaf c.dual
termination_by structural q => q

def dualAll : List Query → List Query
  | [] => []
  | q :: qs => q.dual :: dualAll qs
termination_by structural qs => qs

end

theorem dualAll_eq (qs : List Query) : dualAll qs = qs.map dual := by
  induction qs with
  | nil => rfl
  | cons q qs ih => rw [dualAll, ih, List.map_cons]

theorem dual_compound (k : Connective) (qs : List Query) :
    (compound k qs).dual = compound k.dual (qs.map dual) := by
  cases k <;> exact congrArg _ (dualAll_eq qs)

theorem join_dual (k : Connective) (qs : List Query) :
    join k.dual (qs.map dual) = (join k qs).map dual := by
  rcases qs with _ | ⟨p, _ | ⟨r, qs⟩⟩
  · rfl
  · rfl
  · exact congrArg some (dual_compound k (p :: r :: qs)).symm

theorem spliced_dual (k : Connective) (q : Query) :
    spliced k.dual q.dual = (spliced k q).map dual := by
  cases k <;> cases q <;>
    simp [spliced, Connective.dual, dual, conjuncts, disjuncts, dualAll_eq]

theorem flatten_dual (q : Query) : q.dual.flatten = q.flatten.dual := by
  induction q using inductionOn with
  | compound k qs ih =>
    rw [dual_compound, flatten_compound, flatten_compound, dual_compound, List.flatMap_map,
      List.map_flatMap]
    congr 1
    refine List.flatMap_congr fun q hq => ?_
    rw [ih q hq, spliced_dual]
  | leaf c => rfl

/-- Every comparison of the query has a complement. -/
def IsPaired (q : Query) : Prop := ∀ c ∈ q.leaves, c.operator.complement?.isSome

theorem isPaired_compound {k : Connective} {qs : List Query} :
    (compound k qs).IsPaired ↔ ∀ q ∈ qs, q.IsPaired := by
  unfold IsPaired
  rw [leaves_compound]
  exact List.forall_mem_flatMap

theorem isPaired_leaf {c : Comparison} : (leaf c).IsPaired ↔ c.operator.complement?.isSome :=
  List.forall_mem_singleton

/-- **The dual of a query holds when the query does not.** -/
theorem holds_dual {truth : Comparison → Bool} (htruth : IsOpposed truth) {q : Query}
    (hq : q.IsPaired) : q.dual.holds truth = !q.holds truth := by
  induction q using inductionOn with
  | compound k qs ih =>
    rw [dual_compound, holds_compound, holds_compound, ← Connective.combine_dual, List.map_map,
      List.map_map]
    congr 1
    refine List.map_congr_left fun q hmem => ?_
    exact ih q hmem (isPaired_compound.mp hq q hmem)
  | leaf c =>
    obtain ⟨o, ho⟩ := Option.isSome_iff_exists.mp (isPaired_leaf.mp hq)
    rw [dual, holds, holds, Comparison.dual, ho]
    exact htruth c.property c.key c.operand c.operator o ho

end Query

/-! ## Conditions -/

/-- The condition with the complement of its operator; without a complement it stays. -/
def Condition.dual (c : Condition) : Condition :=
  match (Operator.parse? c.operator).bind Operator.complement? with
  | some o => { c with operator := o.name }
  | none => c

theorem Warning.make_dual (path : List Nat) (i : Nat) (c : Condition) (reason : Rejection) :
    Warning.make path i c.dual reason = .make path i c reason := by
  unfold Condition.dual
  split <;> rfl

variable (properties : List Property)

/-- The operator of the condition has a complement, and the column that the condition names, if it
names one, allows both. -/
def Condition.IsNegatable (c : Condition) : Prop :=
  ∃ o ∈ Operator.parse? c.operator, ∃ o' ∈ o.complement?,
    Text.trim c.property ≠ "" →
      (resolve properties (Text.trim c.property)).family.allows o = true ∧
      (resolve properties (Text.trim c.property)).family.allows o' = true

instance (c : Condition) : Decidable (c.IsNegatable properties) :=
  inferInstanceAs (Decidable (∃ _ ∈ _, ∃ _ ∈ _, _))

theorem parse?_name_of_complement? {o o' : Operator} (h : o.complement? = some o') :
    Operator.parse? o'.name = some o' := by
  unfold Operator.complement? at h
  split at h <;> cases h <;> decide

theorem spread?_of_complement? {o o' : Operator} (h : o.complement? = some o') (f : Family) :
    spread? f o' = (spread? f o).map fun s => (s.1.complement?.getD s.1, s.2.dual) := by
  unfold Operator.complement? at h
  split at h <;> cases h <;> cases f <;> rfl

theorem isSome_complement?_of_spread? {f : Family} {o each : Operator} {k : Connective}
    (h : spread? f o = some (each, k)) : each.complement?.isSome := by
  unfold spread? at h
  split at h <;> cases h <;> rfl

theorem dual_leafWith (property : String) (key : Key) (o : Operator) (v : Scalar) :
    (leafWith property key o v).dual = leafWith property key (o.complement?.getD o) v := rfl

theorem compileList_of_complement? {o o' : Operator} (h : o.complement? = some o')
    (property : String) (r : Resolved) (vs : List Scalar) :
    compileList property r o' vs = (compileList property r o vs).map Query.dual := by
  have hspread := spread?_of_complement? h r.family
  have hleaf : ∀ v, (leafWith property r.key o v).dual = leafWith property r.key o' v := by
    intro v
    rw [dual_leafWith, h, Option.getD_some]
  rcases vs with _ | ⟨v, _ | ⟨w, vs⟩⟩
  · rfl
  · rw [compileList, compileList, hspread]
    cases spread? r.family o with
    | none => exact congrArg Except.ok (hleaf v).symm
    | some s => rfl
  · simp only [compileList, hspread]
    cases spread? r.family o with
    | none => rfl
    | some s =>
      refine congrArg Except.ok ?_
      rw [Query.dual_compound, List.map_map]
      rfl

namespace Condition

theorem dual_eq {c : Condition} {o o' : Operator} (ho : Operator.parse? c.operator = some o)
    (ho' : o.complement? = some o') : c.dual = { c with operator := o'.name } := by
  rw [dual, ho, Option.bind_some, ho']

theorem compileAllowed_of_complement? {o o' : Operator} (h : o.complement? = some o')
    (c : Condition) (property : String) (r : Resolved) :
    c.compileAllowed property r o' = (c.compileAllowed property r o).map Query.dual := by
  have hlist := compileList_of_complement? h property r
  cases hflag : o.isFlag with
  | true => cases o <;> cases hflag <;> cases h <;> rfl
  | false =>
    -- the operator compares with the value of the condition, and so does its complement
    cases o <;> cases hflag <;> cases h
    all_goals
      unfold compileAllowed
      rcases c.value with _ | vs | v
      · rfl
      · exact hlist vs
      · rfl

theorem compileAllowed_withOperator (c : Condition) (raw property : String) (r : Resolved)
    (o : Operator) :
    compileAllowed { c with operator := raw } property r o = c.compileAllowed property r o := rfl

/-- **The dual of a condition is compiled to the dual of its query**, or rejected for the same
reason. -/
theorem compile_dual {c : Condition} (hc : c.IsNegatable properties) :
    c.dual.compile properties = (c.compile properties).map Query.dual := by
  obtain ⟨o, ho, o', ho', hallowed⟩ := hc
  rw [dual_eq ho ho']
  by_cases hnamed : Text.trim c.property = ""
  · simp [compile, hnamed, Except.map]
  · obtain ⟨hallows, hallows'⟩ := hallowed hnamed
    have hparse := parse?_name_of_complement? ho'
    rw [compile_of_parse? (c := { c with operator := o'.name }) hnamed hparse, if_pos hallows',
      compileAllowed_withOperator, compileAllowed_of_complement? ho', compile_of_parse? hnamed ho,
      if_pos hallows]

theorem query?_dual {c : Condition} (hc : c.IsNegatable properties) :
    c.dual.query? properties = (c.query? properties).map Query.dual := by
  rw [query?, query?, compile_dual properties hc]
  cases c.compile properties <;> rfl

theorem isPaired_of_compile {c : Condition} {q : Query} (hc : c.IsNegatable properties)
    (hq : c.compile properties = .ok q) : q.IsPaired := by
  obtain ⟨o, ho, o', ho', -⟩ := hc
  obtain ⟨p, haccepted⟩ := accepted_of_compile hq
  have hp : p = o := Option.some.inj (haccepted.operator.symm.trans ho)
  subst hp
  have hpaired : p.complement?.isSome := Option.isSome_iff_exists.mpr ⟨o', ho'⟩
  cases haccepted.shape with
  | flag => exact Query.isPaired_leaf.mpr hpaired
  | span hspan => cases p <;> cases hspan <;> cases ho'
  | range hrange =>
    subst hrange
    cases ho'
  | plain => exact Query.isPaired_leaf.mpr hpaired
  | spread hvalue hspread hjoin =>
    refine Query.join_induct hjoin (fun p hp => ?_) fun _ => Query.isPaired_compound.mpr
    obtain ⟨v, -, rfl⟩ := List.mem_map.mp hp
    exact Query.isPaired_leaf.mpr (isSome_complement?_of_spread? hspread)

end Condition

/-! ## Groups -/

theorem filterMap_map_eq {α β : Type} {f : α → Option β} {d : α → α} {e : β → β} {xs : List α}
    (h : ∀ x ∈ xs, f (d x) = (f x).map e) : (xs.map d).filterMap f = (xs.filterMap f).map e := by
  rw [List.filterMap_map, List.map_filterMap]
  exact List.filterMap_congr h

namespace Group

mutual

/-- Connectives are exchanged and conditions complemented, at every depth. -/
def dual : Group → Group
  | ⟨id, conditions, subgroups, connective⟩ =>
    ⟨id, conditions.map Condition.dual, dualAll subgroups, connective.dual⟩
termination_by structural g => g

def dualAll : List Group → List Group
  | [] => []
  | g :: gs => g.dual :: dualAll gs
termination_by structural gs => gs

end

theorem dualAll_eq (gs : List Group) : dualAll gs = gs.map dual := by
  induction gs with
  | nil => rfl
  | cons g gs ih => rw [dualAll, ih, List.map_cons]

theorem dual_mk (id : String) (cs : List Condition) (gs : List Group) (k : Connective) :
    dual ⟨id, cs, gs, k⟩ = ⟨id, cs.map Condition.dual, gs.map dual, k.dual⟩ := by
  rw [dual, dualAll_eq]

/-- Every condition of the group, at every depth, can be negated. -/
def IsNegatable (g : Group) : Prop := ∀ c ∈ g.allConditions, c.IsNegatable properties

instance (g : Group) : Decidable (g.IsNegatable properties) :=
  inferInstanceAs (Decidable (∀ _ ∈ _, _))

variable {properties}

theorem isNegatable_mk {id : String} {cs : List Condition} {gs : List Group} {k : Connective} :
    IsNegatable properties ⟨id, cs, gs, k⟩ ↔
      (∀ c ∈ cs, c.IsNegatable properties) ∧ ∀ g ∈ gs, g.IsNegatable properties := by
  unfold IsNegatable
  simp only [allConditions_mk, List.forall_mem_append, List.mem_flatMap]
  refine and_congr_right fun _ => ⟨fun h g hg c hc => h c ⟨g, hg, hc⟩, ?_⟩
  rintro h c ⟨g, hg, hc⟩
  exact h g hg c hc

/-- **The query of the dual of a group is the dual of its query.** -/
theorem query?_dual {g : Group} (hg : g.IsNegatable properties) :
    g.dual.query? properties = (g.query? properties).map Query.dual := by
  induction g using Group.inductionOn with
  | mk id cs gs k ih =>
    obtain ⟨hcs, hgs⟩ := isNegatable_mk.mp hg
    rw [dual_mk, query?_mk, query?_mk,
      filterMap_map_eq fun c hc => Condition.query?_dual properties (hcs c hc),
      filterMap_map_eq fun g hg => ih g hg (hgs g hg), ← List.map_append, Query.join_dual]

theorem validateConditions_dual {cs : List Condition}
    (hcs : ∀ c ∈ cs, c.IsNegatable properties) (path : List Nat) (i : Nat) :
    validateConditions properties path i (cs.map Condition.dual) =
      validateConditions properties path i cs := by
  induction cs generalizing i with
  | nil => rfl
  | cons c cs ih =>
    rw [List.map_cons, validateConditions, validateConditions,
      Condition.compile_dual properties (hcs c List.mem_cons_self),
      ih fun c' hc' => hcs c' (List.mem_cons_of_mem c hc')]
    cases c.compile properties with
    | ok q => rfl
    | error reason => exact congrArg (· :: _) (Warning.make_dual path i c reason)

theorem validateGroups_dual {gs : List Group}
    (h : ∀ g ∈ gs, ∀ path, g.dual.validate properties path = g.validate properties path)
    (path : List Nat) (i : Nat) :
    validateGroups properties path i (gs.map dual) = validateGroups properties path i gs := by
  induction gs generalizing i with
  | nil => rfl
  | cons g gs ih =>
    rw [List.map_cons, validateGroups, validateGroups, h g List.mem_cons_self,
      ih fun g' hg' => h g' (List.mem_cons_of_mem g hg')]

/-- **The dual of a group has the warnings of the group.** -/
theorem validate_dual {g : Group} (hg : g.IsNegatable properties) (path : List Nat) :
    g.dual.validate properties path = g.validate properties path := by
  induction g using Group.inductionOn generalizing path with
  | mk id cs gs k ih =>
    obtain ⟨hcs, hgs⟩ := isNegatable_mk.mp hg
    rw [dual_mk, Group.validate, Group.validate, validateConditions_dual hcs,
      validateGroups_dual fun g hg path => ih g hg (hgs g hg) path]

theorem isPaired_of_query? {g : Group} {q : Query} (hg : g.IsNegatable properties)
    (hq : g.query? properties = some q) : q.IsPaired := by
  have hleaves := g.leaves_query? properties
  rw [hq, Option.elim_some] at hleaves
  intro d hd
  rw [hleaves] at hd
  obtain ⟨c, hc, hd⟩ := List.mem_flatMap.mp hd
  obtain ⟨hmem, haccepted⟩ := List.mem_filter.mp hc
  obtain ⟨q', hq'⟩ := Option.isSome_iff_exists.mp haccepted
  have hcompile := (Condition.query?_eq_some properties).mp hq'
  rw [← Condition.leaves_of_compile properties hcompile] at hd
  exact Condition.isPaired_of_compile properties (hg c hmem) hcompile d hd

end Group

/-! ## Compiling -/

variable {properties}

theorem compile_singleton (g : Group) :
    compile [g] properties = (g.query? properties).map Query.flatten := by
  rw [compile_eq_flatQuery?, Group.whole, Group.flatQuery?_enclosed, Group.flatQuery?]

theorem compile_dual {g : Group} (hg : g.IsNegatable properties) :
    compile [g.dual] properties = (compile [g] properties).map Query.dual := by
  rw [compile_singleton, compile_singleton, Group.query?_dual hg, Option.map_map, Option.map_map]
  congr 1
  exact funext Query.flatten_dual

theorem isPaired_of_compile {g : Group} {q : Query} (hg : g.IsNegatable properties)
    (hq : compile [g] properties = some q) : q.IsPaired := by
  rw [compile_singleton] at hq
  obtain ⟨p, hp, rfl⟩ := Option.map_eq_some_iff.mp hq
  intro c hc
  rw [Query.leaves_flatten] at hc
  exact Group.isPaired_of_query? hg hp c hc

/-- **The dual of a group asks for the opposite.** Both have a query or neither has, the same
conditions are rejected in both, and whichever comparisons are true, one of the two queries holds
when the other does not. -/
theorem holds_compile_dual {g : Group} (hg : g.IsNegatable properties)
    {truth : Comparison → Bool} (htruth : IsOpposed truth) :
    (compile [g.dual] properties = none ↔ compile [g] properties = none) ∧
      (report [g.dual] properties).warnings = (report [g] properties).warnings ∧
      ∀ q q', compile [g] properties = some q → compile [g.dual] properties = some q' →
        q'.holds truth = !q.holds truth := by
  refine ⟨?_, ?_, fun q q' hq hq' => ?_⟩
  · rw [compile_dual hg, Option.map_eq_none_iff]
  · rw [report_warnings, report_warnings, validate, validate]
    have hall : ∀ h ∈ [g], ∀ path,
        h.dual.validate properties path = h.validate properties path := by
      intro h hh path
      rw [List.mem_singleton.mp hh]
      exact Group.validate_dual hg path
    exact Group.validateGroups_dual hall [] 0
  · rw [compile_dual hg, hq, Option.map_some] at hq'
    cases hq'
    exact Query.holds_dual htruth (isPaired_of_compile hg hq)

def taggedProperties : List Property :=
  [⟨"Name", .title, none, none⟩, ⟨"Stage", .select, none, none⟩,
    ⟨"Tags", .multiSelect, none, none⟩, ⟨"Due", .date, none, none⟩]

/-- Deals that are won or lost, or untagged in some way; of the last group one condition names no
column, one has no option and one has two texts where one is allowed. -/
def taggedDeals : Group :=
  ⟨"g1", [⟨"c1", "Stage", " contains ", some (.list [.text "Won", .text "Lost"]), none, none⟩,
      ⟨"c2", "Due", "is_empty", none, none, none⟩],
    [⟨"g2", [⟨"c3", "Tags", "does_not_contain", some (.list [.text "Late", .text "Old"]), none,
        none⟩], [], .and⟩,
      ⟨"g3", [⟨"c4", " ", "equals", some (.one (.text "Won")), none, none⟩,
        ⟨"c5", "Stage", "contains", some (.list []), none, none⟩,
        ⟨"c6", "Name", "equals", some (.list [.text "A", .text "B"]), none, none⟩], [], .and⟩], .or⟩

/-- A deal that is won, tagged as late, and due. -/
def lateDeal (c : Comparison) : Bool :=
  match c.operator with
  | .equals | .contains => c.operand = .value (.text "Won") ∨ c.operand = .value (.text "Late")
  | .doesNotEqual | .doesNotContain =>
    ¬ (c.operand = .value (.text "Won") ∨ c.operand = .value (.text "Late"))
  | .isNotEmpty => true
  | _ => false

theorem isOpposed_lateDeal : IsOpposed lateDeal := by
  intro property key operand o o' h
  unfold Operator.complement? at h
  split at h <;> cases h <;> simp [lateDeal]

/-- The deals as they are asked for, and their opposite. -/
def taggedQuery : Query :=
  .any [leafWith "Stage" .select .equals (.text "Won"),
    leafWith "Stage" .select .equals (.text "Lost"), .leaf ⟨"Due", .date, .isEmpty, .flag⟩,
    .all [leafWith "Tags" .multiSelect .doesNotContain (.text "Late"),
      leafWith "Tags" .multiSelect .doesNotContain (.text "Old")]]

theorem holds_compile_dual_taggedDeals :
    taggedDeals.IsNegatable taggedProperties ∧ IsOpposed lateDeal ∧
      compile [taggedDeals] taggedProperties = some taggedQuery ∧
      compile [taggedDeals.dual] taggedProperties = some taggedQuery.dual ∧
      taggedQuery.holds lateDeal = true ∧ taggedQuery.dual.holds lateDeal = false ∧
      (report [taggedDeals.dual] taggedProperties).warnings =
        (report [taggedDeals] taggedProperties).warnings ∧
      (report [taggedDeals] taggedProperties).warnings.length = 3 := by
  have hnegatable : taggedDeals.IsNegatable taggedProperties := by decide
  have hquery : compile [taggedDeals] taggedProperties = some taggedQuery := by decide
  have hdual : compile [taggedDeals.dual] taggedProperties = some taggedQuery.dual := by decide
  have hholds : taggedQuery.holds lateDeal = true := by decide
  obtain ⟨-, hwarnings, hopposed⟩ := holds_compile_dual hnegatable isOpposed_lateDeal
  refine ⟨hnegatable, isOpposed_lateDeal, hquery, hdual, hholds, ?_, hwarnings, by decide⟩
  rw [hopposed _ _ hquery hdual, hholds]
  rfl

end ChartFeed.Filter
