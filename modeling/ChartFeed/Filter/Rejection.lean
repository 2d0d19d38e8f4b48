import ChartFeed.Filter.Group

/-!
# Rejected conditions

* `Rejection` : why a condition is left out of the query, `code` and `message` its wording.
* `Warning` : a rejected condition and its place in the tree.
-/

namespace ChartFeed.Filter

/-- Why a condition is left out of the query. -/
inductive Rejection where
  | missingProperty
  | missingOperator
  | unknownOperator (operator : String)
  | operatorNotAllowed (operator : Operator) (family : Family)
  | missingValue
  | missingRangeBound
  | invertedDateRange
  | emptyList
  | unsupportedListValue
  deriving DecidableEq, Repr

namespace Rejection

def code : Rejection → String
  | .missingProperty => "missing_property"
  | .missingOperator => "missing_operator"
  | .unknownOperator _ => "unknown_operator"
  | .operatorNotAllowed _ _ => "operator_not_allowed"
  | .missingValue => "missing_value"
  | .missingRangeBound => "missing_range_bound"
  | .invertedDateRange => "inverted_date_range"
  | .emptyList => "empty_list"
  | .unsupportedListValue => "unsupported_list_value"

def message : Rejection → String
  | .missingProperty => "condition has no property"
  | .missingOperator => "condition has no operator"
  | .unknownOperator operator => "unknown operator '" ++ operator ++ "'"
  | .operatorNotAllowed operator family =>
    "operator '" ++ operator.name ++ "' is not valid for " ++ family.name ++ " properties"
  | .missingValue => "operator requires a value"
  | .missingRangeBound => "between requires a start and an end"
  | .invertedDateRange => "start date is after end date"
  | .emptyList => "no options selected"
  | .unsupportedListValue => "operator does not accept multiple values"

end Rejection

/-- A rejected condition: the indices that lead to its group, its index there and its id. -/
structure Warning where
  groupPath : List Nat
  conditionIndex : Nat
  conditionId : String
  reason : Rejection
  message : String
  deriving DecidableEq, Repr

namespace Warning

/-- The warning about a condition; the message names the property as it was entered. -/
def make (path : List Nat) (index : Nat) (c : Condition) (reason : Rejection) : Warning where
  groupPath := path
  conditionIndex := index
  conditionId := c.id
  reason := reason
  message :=
    if c.property.isEmpty then reason.message else c.property ++ ": " ++ reason.message

def toJson (w : Warning) : Json :=
  .object [("groupPath", .list (w.groupPath.map Json.ofNat)),
    ("conditionIndex", .ofNat w.conditionIndex), ("conditionId", .text w.conditionId),
    ("kind", .text w.reason.code), ("message", .text w.message)]

end Warning

end ChartFeed.Filter
