import ChartFeed.Filter.Operator
import ChartFeed.Scalar

/-!
# Filter groups

The filter as it is built: a tree of groups that hold conditions and further groups.

* `Value` : what a condition compares with, one scalar or a list.
* `Condition` : a comparison, possibly half-edited; `Condition.between` a range.
* `Group` : conditions and subgroups under a connective; `Group.isEmpty`, `Group.conditionCount`.
* `Condition.toJson`, `Condition.decoder`, `Group.toJson`, `Group.decoder` : the JSON form.
-/

namespace ChartFeed.Filter

/-- What a condition compares with. -/
inductive Value where
  | list (values : List Scalar)
  | one (value : Scalar)
  deriving DecidableEq, Repr

/-- A comparison. Property and operator are texts: a condition may still be in the making. -/
structure Condition where
  id : String
  property : String
  operator : String
  value : Option Value
  endValue : Option Scalar
  connective : Option Connective
  deriving DecidableEq, Repr

/-- Conditions and subgroups under a connective. -/
structure Group where
  id : String
  conditions : List Condition
  subgroups : List Group
  connective : Connective
  deriving Repr

namespace Condition

def blank : Condition := ⟨"", "", "", none, none, none⟩

def make (id property : String) (operator : Operator) (value : Option Value) : Condition :=
  { blank with id, property, operator := operator.name, value }

def range (id property : String) (start stop : Scalar) : Condition :=
  { make id property .between (some (.one start)) with endValue := some stop }

end Condition

namespace Group

def make (id : String) (connective : Connective) : Group := ⟨id, [], [], connective⟩

def addCondition (g : Group) (c : Condition) : Group := { g with conditions := g.conditions ++ [c] }

def addSubgroup (g sub : Group) : Group := { g with subgroups := g.subgroups ++ [sub] }

mutual

/-- Neither the group nor one below it holds a condition. -/
def isEmpty : Group → Bool
  | ⟨_, conditions, subgroups, _⟩ => conditions.isEmpty && allEmpty subgroups
termination_by structural g => g

def allEmpty : List Group → Bool
  | [] => true
  | g :: gs => g.isEmpty && allEmpty gs
termination_by structural gs => gs

end

mutual

def conditionCount : Group → Nat
  | ⟨_, conditions, subgroups, _⟩ => conditions.length + conditionCounts subgroups
termination_by structural g => g

def conditionCounts : List Group → Nat
  | [] => 0
  | g :: gs => g.conditionCount + conditionCounts gs
termination_by structural gs => gs

end

/-! ## Equality -/

mutual

def decideEq : (a b : Group) → Decidable (a = b)
  | ⟨i, cs, gs, o⟩, ⟨i', cs', gs', o'⟩ =>
    match decideEqAll gs gs', (inferInstance : Decidable ((i, cs, o) = (i', cs', o'))) with
    | isTrue h, isTrue h' => isTrue (by simp_all)
    | isFalse h, _ => isFalse (by simp [h])
    | _, isFalse h => isFalse fun e => h (by cases e; rfl)
termination_by structural a => a

def decideEqAll : (as bs : List Group) → Decidable (as = bs)
  | [], [] => isTrue rfl
  | [], _ :: _ | _ :: _, [] => isFalse (by simp)
  | a :: as, b :: bs =>
    match decideEq a b, decideEqAll as bs with
    | isTrue h, isTrue h' => isTrue (by rw [h, h'])
    | isFalse h, _ => isFalse (by simp [h])
    | _, isFalse h => isFalse (by simp [h])
termination_by structural as => as

end

instance : DecidableEq Group := decideEq

end Group

/-! ## JSON form -/

namespace Value

/-- A list is written as a list, a scalar as itself. -/
def toJson : Value → Json
  | .list values => .list (values.map Scalar.toJson)
  | .one value => value.toJson

/-- A list of scalars or one scalar. -/
def ofJson? : Json → Option Value
  | .list items => .list <$> items.mapM Scalar.ofJson?
  | j => .one <$> Scalar.ofJson? j

def decoder : Decoder Value := .whole ofJson?

end Value

namespace Condition

/-- A condition leaves out what it has not. -/
def toJson (c : Condition) : Json :=
  .object ([("id", .text c.id), ("property", .text c.property), ("operator", .text c.operator)] ++
    Json.field? "value" (c.value.map Value.toJson) ++
    Json.field? "endValue" (c.endValue.map Scalar.toJson) ++
    Json.field? "logicalOperator" (c.connective.map (.text ·.name)))

/-- Reads a condition; every field may be absent. -/
def decoder : Decoder Condition :=
  .record
    [.may "id" .text fun v c => { c with id := v },
      .may "property" .text fun v c => { c with property := v },
      .may "operator" .text fun v c => { c with operator := v },
      .may "value" (.optional Value.decoder) fun v c => { c with value := v },
      .may "endValue" (.optional Scalar.decoder) fun v c => { c with endValue := v },
      .may "logicalOperator" (.optional (.tagged Connective.ofName?)) fun v c =>
        { c with connective := v }]
    blank

end Condition

namespace Group

mutual

def toJson : Group → Json
  | ⟨id, conditions, subgroups, connective⟩ =>
    .object [("id", .text id), ("conditions", .list (conditions.map Condition.toJson)),
      ("subgroups", .list (toJsonAll subgroups)), ("logicalOperator", .text connective.name)]
termination_by structural g => g

def toJsonAll : List Group → List Json
  | [] => []
  | g :: gs => g.toJson :: toJsonAll gs
termination_by structural gs => gs

end

def listToJson (gs : List Group) : Json := .list (toJsonAll gs)

/-- Reads a group nested no deeper than a number of levels; every field may be absent. -/
def decoderUpTo : Nat → Decoder Group
  | 0 => fun _ => .error .malformed
  | levels + 1 =>
    .record
      [.may "id" .text fun v g => { g with id := v },
        .may "conditions" (.listOf Condition.decoder) fun v g => { g with conditions := v },
        .may "subgroups" (.listOf (decoderUpTo levels)) fun v g => { g with subgroups := v },
        .may "logicalOperator" (.tagged Connective.ofName?) fun v g => { g with connective := v }]
      (make "" .and)

/-- Reads a group; it is nested no deeper than its document. -/
def decoder : Decoder Group := fun d => decoderUpTo (d.height + 1) d

end Group

end ChartFeed.Filter
