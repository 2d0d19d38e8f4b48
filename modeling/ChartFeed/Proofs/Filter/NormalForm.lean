import ChartFeed.Proofs.Filter.Condition
import ChartFeed.Proofs.Filter.GroupTree
import ChartFeed.Proofs.Query.Flatten
import ChartFeed.Proofs.Text.Trim

/-!
# Compiled queries are in normal form

* `Comparison.IsWellFormed` : a comparison that the table service takes.
* `Query.IsNormal` : at every depth compounds have two or more members, no member has the connective
  of its parent, and comparisons are well-formed.
* `isNormal_of_compile` : compiled queries are in normal form.
-/

namespace ChartFeed.Filter

/-- A comparison that the table service takes: its key and its operator are those of the named
property, and its right-hand side is of the kind that the operator asks for. -/
structure Comparison.IsWellFormed (properties : List Property) (c : Comparison) : Prop where
  named : c.property ≠ ""
  trimmed : Text.IsTrimmed c.property
  key : c.key = (resolve properties c.property).key
  allowed : (resolve properties c.property).family.allows c.operator = true
  not_range : c.operator ≠ .between
  flag : c.operand = .flag ↔ c.operator ∈ [Operator.isEmpty, .isNotEmpty]
  span : c.operand = .span ↔ c.operator ∈ [Operator.pastWeek, .pastMonth, .pastYear]
  value : (∃ v, c.operand = .value v) ↔
    c.operator ∉ [Operator.isEmpty, .isNotEmpty, .pastWeek, .pastMonth, .pastYear]

/-- Every compound has two or more members, none of them with its own connective, and every
comparison is well-formed. -/
def Query.IsNormal (properties : List Property) (q : Query) : Prop :=
  ∀ n ∈ q.nodes, n.IsWide ∧ n.IsUnnested ∧ ∀ c, n = .leaf c → c.IsWellFormed properties

/-! ## Comparisons -/

theorem allows_bounds_of_allows_between {f : Family} (h : f.allows .between = true) :
    f.allows .onOrAfter = true ∧ f.allows .onOrBefore = true := by
  cases f <;> revert h <;> decide

theorem allows_of_spread? {f : Family} {o each : Operator} {k : Connective}
    (h : spread? f o = some (each, k)) : f.allows each = true := by
  unfold spread? at h
  split at h <;> cases h <;> decide

theorem takesValue_of_spread? {f : Family} {o each : Operator} {k : Connective}
    (h : spread? f o = some (each, k)) : each.takesValue = true ∧ each ≠ .between := by
  unfold spread? at h
  split at h <;> cases h <;> decide

section leaf

variable {properties : List Property} {name : String} {o : Operator}

theorem isWellFormed_flag (hname : Text.trim name ≠ "")
    (hallowed : (resolve properties (Text.trim name)).family.allows o = true)
    (ho : o.isFlag = true) :
    Comparison.IsWellFormed properties
      ⟨Text.trim name, (resolve properties (Text.trim name)).key, o, .flag⟩ := by
  refine ⟨hname, Text.isTrimmed_trim name, rfl, hallowed, ?_, ?_, ?_, ?_⟩ <;>
    cases o <;> simp_all [Operator.isFlag]

theorem isWellFormed_span (hname : Text.trim name ≠ "")
    (hallowed : (resolve properties (Text.trim name)).family.allows o = true)
    (ho : o.isRelative = true) :
    Comparison.IsWellFormed properties
      ⟨Text.trim name, (resolve properties (Text.trim name)).key, o, .span⟩ := by
  refine ⟨hname, Text.isTrimmed_trim name, rfl, hallowed, ?_, ?_, ?_, ?_⟩ <;>
    cases o <;> simp_all [Operator.isRelative]

theorem isWellFormed_value (v : Scalar) (hname : Text.trim name ≠ "")
    (hallowed : (resolve properties (Text.trim name)).family.allows o = true)
    (ho : o.takesValue = true) (hrange : o ≠ .between) :
    Comparison.IsWellFormed properties
      ⟨Text.trim name, (resolve properties (Text.trim name)).key, o, .value v⟩ := by
  refine ⟨hname, Text.isTrimmed_trim name, rfl, hallowed, hrange, ?_, ?_, ?_⟩ <;>
    cases o <;> simp_all [Operator.takesValue, Operator.isFlag, Operator.isRelative]

end leaf

/-! ## Before flattening -/

/-- Compounds have two or more members at every depth, and comparisons are well-formed. -/
structure Query.IsWellFormed (properties : List Property) (q : Query) : Prop where
  wide : ∀ n ∈ q.nodes, n.IsWide
  leaves : ∀ c ∈ q.leaves, c.IsWellFormed properties

variable {properties : List Property}

theorem Query.isWellFormed_leaf {c : Comparison} (hc : c.IsWellFormed properties) :
    (leaf c).IsWellFormed properties := by
  refine ⟨fun n hn => ?_, fun d hd => ?_⟩
  · rw [mem_nodes_leaf] at hn
    subst hn
    intro h
    cases h
  · rw [leaves, List.mem_singleton] at hd
    exact hd ▸ hc

theorem Query.isWellFormed_compound (k : Connective) {qs : List Query} (hlen : 2 ≤ qs.length)
    (hqs : ∀ q ∈ qs, q.IsWellFormed properties) : (compound k qs).IsWellFormed properties := by
  refine ⟨fun n hn => ?_, fun c hc => ?_⟩
  · rcases mem_nodes_compound.mp hn with rfl | ⟨q, hq, hn⟩
    · exact isWide_compound.mpr hlen
    · exact (hqs q hq).wide n hn
  · rw [leaves_compound] at hc
    obtain ⟨q, hq, hc⟩ := List.mem_flatMap.mp hc
    exact (hqs q hq).leaves c hc

theorem Condition.isWellFormed_of_accepted {c : Condition} {o : Operator} {q : Query}
    (hc : c.Accepted properties o q) : q.IsWellFormed properties := by
  have hname := hc.named
  have hallowed := hc.allowed
  cases hc.shape with
  | flag ho => exact Query.isWellFormed_leaf (isWellFormed_flag hname hallowed ho)
  | span ho => exact Query.isWellFormed_leaf (isWellFormed_span hname hallowed ho)
  | range ho hvalue hend =>
    -- the range itself is never sent: it stands for its two bounds
    subst ho
    obtain ⟨hafter, hbefore⟩ := allows_bounds_of_allows_between hallowed
    refine Query.isWellFormed_compound .and (Nat.le_refl 2) fun q hq => ?_
    rcases List.mem_cons.mp hq with rfl | hq
    · exact Query.isWellFormed_leaf (isWellFormed_value _ hname hafter rfl (by decide))
    · rw [List.mem_singleton.mp hq]
      exact Query.isWellFormed_leaf (isWellFormed_value _ hname hbefore rfl (by decide))
  | plain ho hrange hvalue =>
    exact Query.isWellFormed_leaf (isWellFormed_value _ hname hallowed ho hrange)
  | spread hvalue hspread hjoin =>
    obtain ⟨heach, hrange⟩ := takesValue_of_spread? hspread
    refine Query.join_induct hjoin (fun p hp => ?_) (Query.isWellFormed_compound _)
    obtain ⟨v, -, rfl⟩ := List.mem_map.mp hp
    exact Query.isWellFormed_leaf
      (isWellFormed_value v hname (allows_of_spread? hspread) heach hrange)

theorem Group.isWellFormed_of_query? {g : Group} {q : Query}
    (hg : g.query? properties = some q) : q.IsWellFormed properties := by
  refine Group.query?_induct properties (P := Query.IsWellFormed properties) (fun c q hc => ?_)
    (fun k qs => Query.isWellFormed_compound k) hg
  obtain ⟨o, hc⟩ := Condition.accepted_of_compile hc
  exact Condition.isWellFormed_of_accepted hc

/-! ## After flattening -/

/-- **Compiled queries are in normal form**, whatever the groups and the properties. -/
theorem isNormal_of_compile {groups : List Group} {q : Query}
    (h : compile groups properties = some q) : q.IsNormal properties := by
  rw [compile_eq] at h
  obtain ⟨p, hquery, rfl⟩ := Option.map_eq_some_iff.mp h
  have hp := Group.isWellFormed_of_query? hquery
  refine fun n hn => ⟨Query.isWide_of_mem_nodes_flatten p hp.wide n hn,
    Query.isUnnested_of_mem_nodes_flatten p n hn, ?_⟩
  rintro c rfl
  rw [Query.leaf_mem_nodes, Query.leaves_flatten] at hn
  exact hp.leaves c hn

def dealProperties : List Property :=
  [⟨"Stage", .select, none, none⟩, ⟨"Due", .date, none, none⟩]

/-- Deals that are won or lost, due in January and with a date; the empty group does not count. -/
def dealGroups : List Group :=
  [⟨"g1", [⟨"c1", " Stage ", "contains", some (.list [.text "Won", .text "Lost"]), none, none⟩],
    [⟨"g2", [⟨"c2", "Due", "between", some (.one (.text "2024-01-01")),
        some (.text "2024-01-31"), none⟩], [], .and⟩, ⟨"g3", [], [], .or⟩], .and⟩,
    ⟨"g4", [⟨"c3", "Due", "is_not_empty", none, none, none⟩], [], .or⟩]

def dealQuery : Query :=
  .all [.any [leafWith "Stage" .select .equals (.text "Won"),
      leafWith "Stage" .select .equals (.text "Lost")],
    leafWith "Due" .date .onOrAfter (.text "2024-01-01"),
    leafWith "Due" .date .onOrBefore (.text "2024-01-31"),
    .leaf ⟨"Due", .date, .isNotEmpty, .flag⟩]

theorem isNormal_dealQuery :
    compile dealGroups dealProperties = some dealQuery ∧ dealQuery.IsNormal dealProperties := by
  have h : compile dealGroups dealProperties = some dealQuery := by decide
  exact ⟨h, isNormal_of_compile h⟩

end ChartFeed.Filter
