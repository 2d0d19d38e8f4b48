import ChartFeed.Calendar.Reading
import ChartFeed.Filter.Query
import ChartFeed.Filter.Rejection

/-!
# From groups to queries

* `Condition.compile` : the query of one condition, or why it is rejected.
* `report` : the query of a list of groups together with the rejected conditions.
* `compile` : the query alone.
* `validate` : the rejected conditions alone, without building a query.

Rejected conditions and groups without a query are left out; a group with a single member is that
member, and groups side by side are joined by `and`.
-/

namespace ChartFeed.Filter

/-! ## One condition -/

/-- The ends of a range: two scalars, neither the empty text. -/
def Condition.bounds (c : Condition) : Except Rejection (Scalar × Scalar) :=
  match c.value, c.endValue with
  | some (.one start), some stop =>
    if start.isEmptyText || stop.isEmptyText then .error .missingRangeBound else .ok (start, stop)
  | _, _ => .error .missingRangeBound

/-- A scalar as a point in time, if it is a text that reads as one. -/
def instant? (s : Scalar) : Option Instant := s.text?.bind Instant.read?

def isInverted (start stop : Scalar) : Bool :=
  match instant? start, instant? stop with
  | some a, some b => b.isBefore a
  | _, _ => false

/-- How the members of a list are compared one by one and joined. -/
def spread? : Family → Operator → Option (Operator × Connective)
  | .select, .contains => some (.equals, .or)
  | .select, .doesNotContain => some (.doesNotEqual, .and)
  | .multiSelect, .contains => some (.contains, .or)
  | .multiSelect, .doesNotContain => some (.doesNotContain, .and)
  | _, _ => none

def leafWith (property : String) (key : Key) (operator : Operator) (v : Scalar) : Query :=
  .leaf ⟨property, key, operator, .value v⟩

/-- The comparison with a list of values: one value stands for itself, several need an operator that
is spread over them. -/
def compileList (property : String) (r : Resolved) (operator : Operator) :
    List Scalar → Except Rejection Query
  | [] => .error .emptyList
  | [v] =>
    match spread? r.family operator with
    | some (each, _) => .ok (leafWith property r.key each v)
    | none => .ok (leafWith property r.key operator v)
  | vs =>
    match spread? r.family operator with
    | some (each, c) => .ok (.compound c (vs.map (leafWith property r.key each)))
    | none => .error .unsupportedListValue

/-- The query of an operator that the property allows. -/
def Condition.compileAllowed (c : Condition) (property : String) (r : Resolved)
    (operator : Operator) : Except Rejection Query :=
  if operator.isFlag then .ok (.leaf ⟨property, r.key, operator, .flag⟩)
  else if operator.isRelative then .ok (.leaf ⟨property, r.key, operator, .span⟩)
  else if operator = .between then do
    let (start, stop) ← c.bounds
    if isInverted start stop then throw .invertedDateRange
    return .all [leafWith property r.key .onOrAfter start, leafWith property r.key .onOrBefore stop]
  else
    match c.value with
    | none => .error .missingValue
    | some (.one v) => .ok (leafWith property r.key operator v)
    | some (.list vs) => compileList property r operator vs

/-- The query of a condition. Its property and operator are read without the blanks around them. -/
def Condition.compile (properties : List Property) (c : Condition) : Except Rejection Query :=
  let property := Text.trim c.property
  let raw := Text.trim c.operator
  if property.isEmpty then .error .missingProperty
  else if raw.isEmpty then .error .missingOperator
  else
    match Operator.ofName? raw with
    | none => .error (.unknownOperator raw)
    | some operator =>
      let r := resolve properties property
      if r.family.allows operator then c.compileAllowed property r operator
      else .error (.operatorNotAllowed operator r.family)

/-! ## Groups -/

/-- The queries of the conditions of a group, counted from an index, and the rejected ones. -/
def compileConditions (properties : List Property) (path : List Nat) :
    Nat → List Condition → List Query × List Warning
  | _, [] => ([], [])
  | i, c :: cs =>
    let (qs, ws) := compileConditions properties path (i + 1) cs
    match c.compile properties with
    | .ok q => (q :: qs, ws)
    | .error reason => (qs, .make path i c reason :: ws)

mutual

/-- The query of a group at a path, if anything is left of it, and the rejected conditions: those of
the group before those below it. -/
def Group.compile (properties : List Property) (path : List Nat) :
    Group → Option Query × List Warning
  | ⟨_, conditions, subgroups, connective⟩ =>
    let (here, rejected) := compileConditions properties path 0 conditions
    let (below, rejectedBelow) := compileGroups properties path 0 subgroups
    (Query.join connective (here ++ below), rejected ++ rejectedBelow)
termination_by structural g => g

/-- The queries of groups side by side, counted from an index, and the rejected conditions. -/
def compileGroups (properties : List Property) (path : List Nat) :
    Nat → List Group → List Query × List Warning
  | _, [] => ([], [])
  | i, g :: gs =>
    let (q, ws) := g.compile properties (path ++ [i])
    let (qs, ws') := compileGroups properties path (i + 1) gs
    (q.toList ++ qs, ws ++ ws')
termination_by structural _ gs => gs

end

/-- A query and the conditions that are left out of it. -/
structure Report where
  query : Option Query
  warnings : List Warning
  deriving DecidableEq, Repr

def report (groups : List Group) (properties : List Property) : Report :=
  let (queries, warnings) := compileGroups properties [] 0 groups
  ⟨(Query.join .and queries).map Query.flatten, warnings⟩

/-- The query of groups, none when every condition is left out. -/
def compile (groups : List Group) (properties : List Property) : Option Query :=
  (report groups properties).query

/-! ## Warnings alone -/

def validateConditions (properties : List Property) (path : List Nat) :
    Nat → List Condition → List Warning
  | _, [] => []
  | i, c :: cs =>
    let rest := validateConditions properties path (i + 1) cs
    match c.compile properties with
    | .ok _ => rest
    | .error reason => .make path i c reason :: rest

mutual

/-- The rejected conditions of a group at a path and below it. -/
def Group.validate (properties : List Property) (path : List Nat) : Group → List Warning
  | ⟨_, conditions, subgroups, _⟩ =>
    validateConditions properties path 0 conditions ++ validateGroups properties path 0 subgroups
termination_by structural g => g

def validateGroups (properties : List Property) (path : List Nat) : Nat → List Group → List Warning
  | _, [] => []
  | i, g :: gs => g.validate properties (path ++ [i]) ++ validateGroups properties path (i + 1) gs
termination_by structural _ gs => gs

end

/-- The conditions that compiling would leave out, in the order of the tree. -/
def validate (groups : List Group) (properties : List Property) : List Warning :=
  validateGroups properties [] 0 groups

end ChartFeed.Filter
