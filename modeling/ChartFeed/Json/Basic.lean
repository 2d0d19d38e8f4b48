/-!
# JSON values

* `Json` : a JSON value; whole numbers and doubles are kept apart, as they are on the wire.
* `Json.get?`, `Json.text?`, `Json.number?`, `Json.bool?`, `Json.items?` : views that are `none` on
  values of another kind.
* `Json.insertField` : objects keep their keys in ascending order, the last value of a key wins.
-/

namespace ChartFeed

/-- A JSON value. -/
inductive Json where
  | null
  | bool (b : Bool)
  | int (n : Int)
  | float (x : Float)
  | text (s : String)
  | list (items : List Json)
  | object (fields : List (String × Json))
  deriving Inhabited, Repr

namespace Json

/-! ## Views -/

/-- The value under a key of an object. -/
def get? (key : String) : Json → Option Json
  | .object fields => fields.lookup key
  | _ => none

def fields? : Json → Option (List (String × Json))
  | .object fields => some fields
  | _ => none

def items? : Json → Option (List Json)
  | .list items => some items
  | _ => none

def text? : Json → Option String
  | .text s => some s
  | _ => none

def bool? : Json → Option Bool
  | .bool b => some b
  | _ => none

/-- A number as the double nearest to it. -/
def number? : Json → Option Float
  | .int n => some (Float.ofInt n)
  | .float x => some x
  | _ => none

/-- The value under a key, null when there is none. -/
def getD (key : String) (j : Json) : Json := (j.get? key).getD .null

/-! ## Construction -/

/-- Puts a field into fields with ascending keys, in place of one with the same key. -/
def insertField (key : String) (value : Json) : List (String × Json) → List (String × Json)
  | [] => [(key, value)]
  | (k, v) :: rest =>
    if key < k then (key, value) :: (k, v) :: rest
    else if key = k then (key, value) :: rest
    else (k, v) :: insertField key value rest

/-- The object with these fields: ascending keys, the last value of a key. -/
def ofFields (fields : List (String × Json)) : Json :=
  .object (fields.foldl (fun acc field => insertField field.1 field.2 acc) [])

/-- A double as a value: infinities and not-a-number have no JSON form and become null. -/
def ofFloat (x : Float) : Json := if x.isFinite then .float x else .null

def ofNat (n : Nat) : Json := .int n

def textOrNull : Option String → Json
  | some s => .text s
  | none => .null

/-- The field, left out when there is no value. -/
def field? (key : String) : Option Json → List (String × Json)
  | some value => [(key, value)]
  | none => []

end Json

end ChartFeed
