import ChartFeed.Filter.Group

/-!
# Queries

The filter as the table service reads it.

* `Query` : nested conjunctions and disjunctions of comparisons.
* `Query.toJson` : what is sent.
* `Query.holds` : the truth of a query, given the truth of comparisons.
* `Query.leaves` : the comparisons from left to right.
* `Query.flatten` : a conjunction inside a conjunction is merged into it, likewise disjunctions.
-/

namespace ChartFeed.Filter

/-- The right-hand side of a comparison. -/
inductive Operand where
  | value (v : Scalar)
  /-- The comparison is asked for at all: `is_empty: true`. -/
  | flag
  /-- A span of time up to now, written as an empty object. -/
  | span
  deriving DecidableEq, Repr

/-- A property compared under a key. -/
structure Comparison where
  property : String
  key : Key
  operator : Operator
  operand : Operand
  deriving DecidableEq, Repr

/-- A filter of the table service. -/
inductive Query where
  | all (members : List Query)
  | any (members : List Query)
  | leaf (comparison : Comparison)
  deriving Repr

namespace Operand

/-- What is sent as the right-hand side. -/
def toJson : Operand → Json
  | .value v => v.toJson
  | .flag => .bool true
  | .span => .object []

end Operand

namespace Comparison

def toJson (c : Comparison) : Json :=
  .object [("property", .text c.property),
    (c.key.name, .object [(c.operator.name, c.operand.toJson)])]

end Comparison

namespace Query

def compound : Connective → List Query → Query
  | .and => .all
  | .or => .any

/-- Nothing, one query or several joined by a connective. -/
def join (c : Connective) : List Query → Option Query
  | [] => none
  | [q] => some q
  | qs => some (compound c qs)

mutual

def toJson : Query → Json
  | .all qs => .object [("and", .list (toJsonAll qs))]
  | .any qs => .object [("or", .list (toJsonAll qs))]
  | .leaf c => c.toJson
termination_by structural q => q

def toJsonAll : List Query → List Json
  | [] => []
  | q :: qs => q.toJson :: toJsonAll qs
termination_by structural qs => qs

end

/-! ## Meaning -/

mutual

/-- The query holds: a conjunction when all members do, a disjunction when one does. -/
def holds (truth : Comparison → Bool) : Query → Bool
  | .all qs => allHold truth qs
  | .any qs => anyHolds truth qs
  | .leaf c => truth c
termination_by structural q => q

def allHold (truth : Comparison → Bool) : List Query → Bool
  | [] => true
  | q :: qs => q.holds truth && allHold truth qs
termination_by structural qs => qs

def anyHolds (truth : Comparison → Bool) : List Query → Bool
  | [] => false
  | q :: qs => q.holds truth || anyHolds truth qs
termination_by structural qs => qs

end

mutual

/-- The comparisons of a query from left to right. -/
def leaves : Query → List Comparison
  | .all qs | .any qs => leavesAll qs
  | .leaf c => [c]
termination_by structural q => q

def leavesAll : List Query → List Comparison
  | [] => []
  | q :: qs => q.leaves ++ leavesAll qs
termination_by structural qs => qs

end

/-! ## Flattening -/

/-- The members of a conjunction, any other query alone. -/
def conjuncts : Query → List Query
  | .all qs => qs
  | q => [q]

/-- The members of a disjunction, any other query alone. -/
def disjuncts : Query → List Query
  | .any qs => qs
  | q => [q]

mutual

/-- Merges nested conjunctions, and nested disjunctions, from the inside out. -/
def flatten : Query → Query
  | .all qs => .all ((flattenAll qs).flatMap conjuncts)
  | .any qs => .any ((flattenAll qs).flatMap disjuncts)
  | .leaf c => .leaf c
termination_by structural q => q

def flattenAll : List Query → List Query
  | [] => []
  | q :: qs => q.flatten :: flattenAll qs
termination_by structural qs => qs

end

/-! ## Equality -/

mutual

def decideEq : (a b : Query) → Decidable (a = b)
  | .all qs, .all qs' | .any qs, .any qs' =>
    match decideEqAll qs qs' with
    | isTrue h => isTrue (by rw [h])
    | isFalse h => isFalse (by simp [h])
  | .leaf c, .leaf c' => if h : c = c' then isTrue (by rw [h]) else isFalse (by simp [h])
  | .all _, .any _ | .all _, .leaf _ | .any _, .all _ | .any _, .leaf _ | .leaf _, .all _
  | .leaf _, .any _ => isFalse (by simp)
termination_by structural a => a

def decideEqAll : (as bs : List Query) → Decidable (as = bs)
  | [], [] => isTrue rfl
  | [], _ :: _ | _ :: _, [] => isFalse (by simp)
  | a :: as, b :: bs =>
    match decideEq a b, decideEqAll as bs with
    | isTrue h, isTrue h' => isTrue (by rw [h, h'])
    | isFalse h, _ => isFalse (by simp [h])
    | _, isFalse h => isFalse (by simp [h])
termination_by structural as => as

end

instance : DecidableEq Query := decideEq

end Query

end ChartFeed.Filter
