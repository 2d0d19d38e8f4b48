import ChartFeed.Proofs.Filter.Condition
import ChartFeed.Proofs.Query.Tree
import ChartFeed.Proofs.Text.Trim
import ChartFeed.Source.Database

/-!
# Columns under their own names

A condition is compiled under its property without the blanks around it, while a column is listed
under its name as it is.

* `IsFilteredAs` : conditions on a name are filtered under that name and a type.
* `find?_ofDatabase` : the listed columns are found under their names.
* `isFilteredAs_iff` : a column is filtered under its own name and type exactly when its name has no
  blank at either end.
-/

namespace ChartFeed

open Database (columns column?)

namespace Filter

/-- A condition on a name, with an operator that columns of a type allow, is never rejected for the
operator, and its comparisons are all with that name, under the key of that type. -/
def IsFilteredAs (properties : List Property) (name : String) (type : PropertyType) : Prop :=
  ∀ (c : Condition) (o : Operator), c.property = name → Operator.parse? c.operator = some o →
    (Family.ofType type).allows o = true →
    (∀ o' f, c.compile properties ≠ .error (.operatorNotAllowed o' f)) ∧
      ∀ q, c.compile properties = .ok q →
        ∀ leaf ∈ q.leaves, leaf.property = name ∧ leaf.key = Key.ofType type

/-! ## Comparisons of a condition -/

theorem Query.forall_leaves_compound {P : Comparison → Prop} {k : Connective} {qs : List Query}
    (h : ∀ q ∈ qs, ∀ leaf ∈ q.leaves, P leaf) : ∀ leaf ∈ (compound k qs).leaves, P leaf := by
  intro leaf hleaf
  rw [leaves_compound, List.mem_flatMap] at hleaf
  obtain ⟨q, hq, hleaf⟩ := hleaf
  exact h q hq leaf hleaf

namespace Condition

variable {c : Condition} {property : String} {r : Resolved} {o : Operator}

theorem Shape.names {q : Query} (h : c.Shape property r o q) :
    ∀ leaf ∈ q.leaves, leaf.property = property ∧ leaf.key = r.key := by
  have hsingle : ∀ each operand, ∀ leaf ∈ (Query.leaf ⟨property, r.key, each, operand⟩).leaves,
      leaf.property = property ∧ leaf.key = r.key := by
    intro each operand leaf hleaf
    rw [Query.leaves, List.mem_singleton] at hleaf
    simp [hleaf]
  cases h with
  | flag ho => exact hsingle o .flag
  | span ho => exact hsingle o .span
  | range ho hvalue hend =>
    refine Query.forall_leaves_compound (P := fun leaf => leaf.property = property ∧ leaf.key = r.key)
      (k := .and) fun q hq => ?_
    rcases List.mem_cons.mp hq with rfl | hq
    · exact hsingle _ _
    · rw [List.mem_singleton.mp hq]
      exact hsingle _ _
  | plain ho hrange hvalue => exact hsingle o _
  | spread hvalue hspread hjoin =>
    refine Query.join_induct hjoin (fun p hp => ?_) fun _ => Query.forall_leaves_compound
    obtain ⟨v, -, rfl⟩ := List.mem_map.mp hp
    exact hsingle _ _

theorem bounds_ne_operatorNotAllowed (o' : Operator) (f : Family) :
    c.bounds ≠ .error (.operatorNotAllowed o' f) := by
  unfold bounds
  split
  · split <;> simp
  · simp

theorem compileList_ne_operatorNotAllowed (vs : List Scalar) (o' : Operator) (f : Family) :
    compileList property r o vs ≠ .error (.operatorNotAllowed o' f) := by
  unfold compileList
  split
  · simp
  · split <;> simp
  · split <;> simp

theorem compileAllowed_ne_operatorNotAllowed (o' : Operator) (f : Family) :
    c.compileAllowed property r o ≠ .error (.operatorNotAllowed o' f) := by
  by_cases hrange : o = .between
  · subst hrange
    have hbounds := bounds_ne_operatorNotAllowed (c := c) o' f
    rw [compileAllowed_between]
    cases hcase : c.bounds with
    | error reason =>
      intro h
      cases h
      exact hbounds hcase
    | ok bounds =>
      dsimp only
      split <;> simp
  · unfold compileAllowed
    rw [if_neg hrange]
    split
    · simp
    split
    · simp
    split
    · simp
    · simp
    · exact compileList_ne_operatorNotAllowed _ o' f

end Condition

/-! ## Listed columns -/

theorem exists_column?_of_type {name : String} {column : Json} {type : PropertyType}
    (h : (column.get? "type").bind Json.text? = some type.tag) :
    ∃ p, column? name column = some p ∧ p.name = name ∧ p.type = type := by
  obtain ⟨tag, htag, htext⟩ := Option.bind_eq_some_iff.mp h
  simp [column?, htag, htext, PropertyType.ofTag?_tag]

theorem name_of_column? {name : String} {column : Json} {p : Property}
    (h : column? name column = some p) : p.name = name := by
  unfold column? at h
  simp only [Option.bind_eq_bind, Option.bind_eq_some_iff, pure, Option.some.injEq] at h
  obtain ⟨_, _, _, _, _, _, rfl⟩ := h
  rfl

theorem find?_filterMap_column? {fields : List (String × Json)} {name : String} {column : Json}
    {p : Property} (hkeys : (fields.map Prod.fst).Nodup) (hmem : (name, column) ∈ fields)
    (hp : column? name column = some p) :
    Property.find? (fields.filterMap fun (name, column) => column? name column) name = some p := by
  induction fields with
  | nil => cases hmem
  | cons field fields ih =>
    obtain ⟨key, value⟩ := field
    rw [List.map_cons, List.nodup_cons] at hkeys
    obtain ⟨hfresh, hkeys⟩ := hkeys
    rcases List.mem_cons.mp hmem with heq | hmem
    · cases heq
      simp [Property.find?, hp, name_of_column? hp]
    · have hne : key ≠ name := by
        rintro rfl
        exact hfresh (List.mem_map.mpr ⟨_, hmem, rfl⟩)
      have hrest := ih hkeys hmem
      rw [Property.find?] at hrest ⊢
      cases hvalue : column? key value with
      | none => simp [hvalue, hrest]
      | some p' => simp [hvalue, name_of_column? hvalue, hne, hrest]

theorem resolve_ofDatabase {database column : Json} {name : String} {type : PropertyType}
    (hkeys : ((columns database).map Prod.fst).Nodup) (hmem : (name, column) ∈ columns database)
    (htype : (column.get? "type").bind Json.text? = some type.tag) :
    resolve (Schema.ofDatabase database).properties name = .ofType type := by
  obtain ⟨p, hp, -, htype⟩ := exists_column?_of_type htype
  rw [resolve, Schema.ofDatabase, find?_filterMap_column? hkeys hmem hp, ← htype]

/-! ## Under its own name -/

/-- An operator that columns of a type allow, and that takes a single value. -/
def sampleOperator (type : PropertyType) : Operator :=
  if type = .multiSelect then .contains else .equals

theorem allows_sampleOperator (type : PropertyType) :
    (Family.ofType type).allows (sampleOperator type) = true := by
  cases type <;> decide

theorem parse?_sampleOperator (type : PropertyType) :
    Operator.parse? (sampleOperator type).name = some (sampleOperator type) := by
  cases type <;> decide

def sampleCondition (name : String) (type : PropertyType) : Condition :=
  .make "" name (sampleOperator type) (some (.one (.bool true)))

theorem compileAllowed_sampleCondition (name : String) (type : PropertyType) (r : Resolved) :
    (sampleCondition name type).compileAllowed (Text.trim name) r (sampleOperator type) =
      .ok (leafWith (Text.trim name) r.key (sampleOperator type) (.bool true)) := by
  cases type <;> rfl

/-- **A column is filtered under its own name and type exactly when its name has no blank at either
end.** With one there, the condition is compiled under another name than that of its column. -/
theorem isFilteredAs_iff {database column : Json} {name : String} {type : PropertyType}
    (hkeys : ((columns database).map Prod.fst).Nodup) (hmem : (name, column) ∈ columns database)
    (htype : (column.get? "type").bind Json.text? = some type.tag)
    (hnamed : Text.isAllBlank name = false) :
    IsFilteredAs (Schema.ofDatabase database).properties name type ↔ Text.IsTrimmed name := by
  have hblank : Text.trim name ≠ "" := Text.trim_ne_of_not_isAllBlank hnamed
  rw [← Text.trim_eq_self_iff]
  constructor
  · intro hfiltered
    have hparse := parse?_sampleOperator type
    obtain ⟨hallowed, hnames⟩ := hfiltered (sampleCondition name type) _ rfl hparse
      (allows_sampleOperator type)
    have hcompile : (sampleCondition name type).compile (Schema.ofDatabase database).properties = _ :=
      Condition.compile_of_parse? hblank hparse
    split at hcompile
    · exact (hnames _ (hcompile.trans (compileAllowed_sampleCondition name type _)) _
        (List.mem_singleton_self _)).1
    · exact absurd hcompile (hallowed _ _)
  · intro htrim c o hname ho hallowed
    have hresolve : resolve (Schema.ofDatabase database).properties (Text.trim c.property) =
        .ofType type := by
      rw [hname, htrim]
      exact resolve_ofDatabase hkeys hmem htype
    constructor
    · intro o' f
      rw [Condition.compile_of_parse? (by rwa [hname]) ho, hresolve, Resolved.ofType, if_pos hallowed]
      exact Condition.compileAllowed_ne_operatorNotAllowed o' f
    · intro q hq
      obtain ⟨o', haccepted⟩ := Condition.accepted_of_compile hq
      have hshape := haccepted.shape
      rw [hresolve, hname, htrim] at hshape
      exact hshape.names

/-- A table with a column of amounts, once under a plain name and once with blanks around it. -/
def amountDatabase : Json :=
  .object [("id", .text "deals"),
    ("properties", .object
      [(" Price ", .object [("id", .text "p"), ("type", .text "number")]),
        ("Amount", .object [("id", .text "a"), ("type", .text "number")])])]

theorem isFilteredAs_amount :
    ((columns amountDatabase).map Prod.fst).Nodup ∧
      ("Amount", .object [("id", .text "a"), ("type", .text "number")]) ∈ columns amountDatabase ∧
      Text.isAllBlank "Amount" = false ∧
      IsFilteredAs (Schema.ofDatabase amountDatabase).properties "Amount" .number := by
  have hkeys : ((columns amountDatabase).map Prod.fst).Nodup := by decide
  have hmem : ("Amount", Json.object [("id", .text "a"), ("type", .text "number")]) ∈
      columns amountDatabase := .tail _ (.head _)
  have hnamed : Text.isAllBlank "Amount" = false := by decide
  have htrimmed : Text.IsTrimmed "Amount" := Text.trim_eq_self_iff.mp (by decide)
  exact ⟨hkeys, hmem, hnamed, (isFilteredAs_iff hkeys hmem rfl hnamed).mpr htrimmed⟩

def priceCondition : Condition :=
  .make "c" " Price " .greaterThan (some (.one (.number 10)))

/-- A column with blanks around its name is taken for a text, and the operator of a number is
rejected. -/
theorem not_isFilteredAs_price :
    (" Price ", .object [("id", .text "p"), ("type", .text "number")]) ∈ columns amountDatabase ∧
      Text.isAllBlank " Price " = false ∧ (Family.ofType .number).allows .greaterThan = true ∧
      priceCondition.compile (Schema.ofDatabase amountDatabase).properties =
        .error (.operatorNotAllowed .greaterThan .text) ∧
      ¬ IsFilteredAs (Schema.ofDatabase amountDatabase).properties " Price " .number := by
  have hcompile : priceCondition.compile (Schema.ofDatabase amountDatabase).properties =
      .error (.operatorNotAllowed .greaterThan .text) := by
    have hresolve : resolve (Schema.ofDatabase amountDatabase).properties
        (Text.trim priceCondition.property) = .ofType .richText := by decide +kernel
    rw [Condition.compile_of_parse? (o := .greaterThan) (by decide) (by decide), hresolve]
    rfl
  refine ⟨.head _, by decide, by decide, hcompile, ?_⟩
  intro hfiltered
  obtain ⟨hallowed, -⟩ := hfiltered priceCondition .greaterThan rfl (by decide) (by decide)
  exact hallowed _ _ hcompile

end Filter

end ChartFeed
