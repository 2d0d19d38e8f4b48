import ChartFeed.Property.Descriptor
import ChartFeed.Text.Blank

/-!
# Operators of a filter

* `Operator` : the comparisons, `Operator.name`, `Operator.parse?` their names.
* `Family` : property types that share one set of operators, `Family.allows` that set.
* `Key` : the type under which a comparison is written on the wire.
* `resolve` : the family and the key of a property name.
-/

namespace ChartFeed.Filter

/-- How the members of a group are joined. -/
inductive Connective where
  | and
  | or
  deriving DecidableEq, Repr, Inhabited

namespace Connective

def name : Connective → String
  | .and => "and"
  | .or => "or"

def ofName? (s : String) : Option Connective :=
  if s = "and" then some .and else if s = "or" then some .or else none

theorem ofName?_name (c : Connective) : ofName? c.name = some c := by cases c <;> decide

end Connective

/-! ## Operators -/

/-- A comparison of a property with a value. -/
inductive Operator where
  | equals
  | doesNotEqual
  | contains
  | doesNotContain
  | startsWith
  | endsWith
  | greaterThan
  | lessThan
  | greaterThanOrEqualTo
  | lessThanOrEqualTo
  | isEmpty
  | isNotEmpty
  | before
  | after
  | onOrBefore
  | onOrAfter
  | between
  | pastWeek
  | pastMonth
  | pastYear
  deriving DecidableEq, Repr

namespace Operator

def all : List Operator :=
  [.equals, .doesNotEqual, .contains, .doesNotContain, .startsWith, .endsWith, .greaterThan,
    .lessThan, .greaterThanOrEqualTo, .lessThanOrEqualTo, .isEmpty, .isNotEmpty, .before, .after,
    .onOrBefore, .onOrAfter, .between, .pastWeek, .pastMonth, .pastYear]

def name : Operator → String
  | .equals => "equals"
  | .doesNotEqual => "does_not_equal"
  | .contains => "contains"
  | .doesNotContain => "does_not_contain"
  | .startsWith => "starts_with"
  | .endsWith => "ends_with"
  | .greaterThan => "greater_than"
  | .lessThan => "less_than"
  | .greaterThanOrEqualTo => "greater_than_or_equal_to"
  | .lessThanOrEqualTo => "less_than_or_equal_to"
  | .isEmpty => "is_empty"
  | .isNotEmpty => "is_not_empty"
  | .before => "before"
  | .after => "after"
  | .onOrBefore => "on_or_before"
  | .onOrAfter => "on_or_after"
  | .between => "between"
  | .pastWeek => "past_week"
  | .pastMonth => "past_month"
  | .pastYear => "past_year"

def ofName? (s : String) : Option Operator := all.find? (·.name == s)

/-- The operator of a name, blanks around it aside. -/
def parse? (raw : String) : Option Operator := ofName? (Text.trim raw)

theorem mem_all (o : Operator) : o ∈ all := by cases o <;> decide

theorem ofName?_name (o : Operator) : ofName? o.name = some o := by cases o <;> decide

/-- The property is compared with nothing: it is empty or not. -/
def isFlag : Operator → Bool
  | .isEmpty | .isNotEmpty => true
  | _ => false

/-- The property is compared with a span of time up to now. -/
def isRelative : Operator → Bool
  | .pastWeek | .pastMonth | .pastYear => true
  | _ => false

/-- The user gives a value to compare with. -/
def takesValue (o : Operator) : Bool := !o.isFlag && !o.isRelative

end Operator

/-! ## Families -/

/-- Property types that share one set of operators. -/
inductive Family where
  | number
  | text
  | select
  | multiSelect
  | date
  | checkbox
  | status
  deriving DecidableEq, Repr

namespace Family

def all : List Family := [.number, .text, .select, .multiSelect, .date, .checkbox, .status]

def name : Family → String
  | .number => "number"
  | .text => "text"
  | .select => "select"
  | .multiSelect => "multi_select"
  | .date => "date"
  | .checkbox => "checkbox"
  | .status => "status"

/-- The family of a property type; types without a family of their own are compared as texts. -/
def ofType : PropertyType → Family
  | .number | .formula | .rollup => .number
  | .select => .select
  | .multiSelect => .multiSelect
  | .date => .date
  | .checkbox => .checkbox
  | .status => .status
  | _ => .text

/-- The operators of a family, in the order in which they are offered. -/
def operators : Family → List Operator
  | .number =>
    [.equals, .doesNotEqual, .greaterThan, .lessThan, .greaterThanOrEqualTo, .lessThanOrEqualTo,
      .isEmpty, .isNotEmpty]
  | .text =>
    [.equals, .doesNotEqual, .contains, .doesNotContain, .startsWith, .endsWith, .isEmpty,
      .isNotEmpty]
  | .select => [.equals, .doesNotEqual, .contains, .doesNotContain, .isEmpty, .isNotEmpty]
  | .multiSelect => [.contains, .doesNotContain, .isEmpty, .isNotEmpty]
  | .date =>
    [.equals, .before, .after, .onOrBefore, .onOrAfter, .between, .pastWeek, .pastMonth, .pastYear,
      .isEmpty, .isNotEmpty]
  | .checkbox => [.equals, .doesNotEqual]
  | .status => [.equals, .doesNotEqual, .isEmpty, .isNotEmpty]

def allows (f : Family) (o : Operator) : Bool := f.operators.contains o

end Family

/-! ## Keys -/

/-- The type under which a comparison is written. -/
inductive Key where
  | title
  | richText
  | number
  | select
  | multiSelect
  | status
  | date
  | checkbox
  deriving DecidableEq, Repr

namespace Key

def name : Key → String
  | .title => "title"
  | .richText => "rich_text"
  | .number => "number"
  | .select => "select"
  | .multiSelect => "multi_select"
  | .status => "status"
  | .date => "date"
  | .checkbox => "checkbox"

/-- The key of a property type; types without a key of their own are written as rich text. -/
def ofType : PropertyType → Key
  | .title => .title
  | .number | .formula | .rollup => .number
  | .select => .select
  | .multiSelect => .multiSelect
  | .status => .status
  | .date => .date
  | .checkbox => .checkbox
  | _ => .richText

end Key

/-! ## Names of properties -/

/-- The family and the key of a property. -/
structure Resolved where
  family : Family
  key : Key
  deriving DecidableEq, Repr

namespace Resolved

def ofType (t : PropertyType) : Resolved := ⟨.ofType t, .ofType t⟩

end Resolved

/-- The name tells of itself, in any case, that it belongs to a column with several options. Only
ASCII capitals are lowered: no other capital has a letter of `multi_select` alone as its small
letter. -/
def namesMultiSelect (name : String) : Bool :=
  Text.containsRun "multi_select".toList (Text.lowerAscii name).toList

/-- The family and the key of a property name. A name without a column is rich text, unless it tells
of itself that it is a column with several options: the builder emits such names before the columns
are known. -/
def resolve (properties : List Property) (name : String) : Resolved :=
  match Property.find? properties name with
  | some p => .ofType p.type
  | none => if namesMultiSelect name then .ofType .multiSelect else .ofType .richText

end ChartFeed.Filter
