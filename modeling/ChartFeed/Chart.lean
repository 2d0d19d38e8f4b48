import ChartFeed.Cell

/-!
# Charts

* `AggregateFunction` : how the values of a group make one, `AggregateFunction.parse` its name.
* `Point` : one point of a chart.
* `Chart.Buckets` : the rows so far by X label, each bucket found by the slot of its label.
* `Chart.aggregate` : one point per X label, in the order in which the labels are first seen.
* `Chart.countField` : the Y field that asks for the number of rows.
-/

namespace ChartFeed

/-- How the values of a group make one. -/
inductive AggregateFunction where
  | sum
  | avg
  | min
  | max
  | count
  deriving DecidableEq, Repr

namespace AggregateFunction

def name : AggregateFunction → String
  | .sum => "SUM"
  | .avg => "AVG"
  | .min => "MIN"
  | .max => "MAX"
  | .count => "COUNT"

/-- The function of a name in any case, blanks around it aside; any other name is a sum. -/
def parse (raw : String) : AggregateFunction :=
  match Text.upperAscii (Text.trim raw) with
  | "AVG" => .avg
  | "MIN" => .min
  | "MAX" => .max
  | "COUNT" => .count
  | _ => .sum

def total : List Float → Float
  | [] => 0.0
  | v :: vs => vs.foldl (· + ·) v

/-- The smallest value, infinite when there is none. -/
def smallest (vs : List Float) : Float := vs.foldl (fun a v => if v < a then v else a) (1.0 / 0.0)

/-- The largest value, negative infinite when there is none. -/
def largest (vs : List Float) : Float := vs.foldl (fun a v => if a < v then v else a) (-1.0 / 0.0)

/-- The value that a function makes of the values of a group and the number of its rows. -/
def apply : AggregateFunction → List Float → Nat → Float
  | .sum, vs, _ => total vs
  | .avg, vs, _ => if vs.isEmpty then 0.0 else total vs / Float.ofNat vs.length
  | .min, vs, _ => smallest vs
  | .max, vs, _ => largest vs
  | .count, _, rows => Float.ofNat rows

end AggregateFunction

/-- One point of a chart. -/
structure Point where
  x : String
  y : Float
  label : String
  function : AggregateFunction
  rowCount : Nat
  valueCount : Nat
  deriving DecidableEq, Repr

def Point.toJson (p : Point) : Json :=
  .object [("x", .text p.x), ("y", .ofFloat p.y), ("label", .text p.label),
    ("aggregateFunction", .text p.function.name), ("originalCount", .ofNat p.rowCount),
    ("valueCount", .ofNat p.valueCount)]

namespace Chart

/-- The Y field that asks for the number of rows. -/
def countField : String := "__count__"

/-- What a chart draws: the property for X, for Y and, if any, for the labels, and the function. -/
structure Axes where
  x : String
  y : String
  label : Option String
  function : AggregateFunction
  deriving DecidableEq, Repr

namespace Axes

/-- Rows are counted, whatever they hold. -/
def counts (a : Axes) : Bool := a.y == countField || a.function == .count

def applied (a : Axes) : AggregateFunction := if a.counts then .count else a.function

/-- The group that a row belongs to. -/
def key (a : Axes) (row : Json) : String := (Cell.ofRow row a.x).display

/-- The value of a row on the Y axis; a row that is only counted is one. -/
def value (a : Axes) (row : Json) : Float := if a.counts then 1.0 else (Cell.ofRow row a.y).toNumber

/-- The label that a row gives to its group: the label cell, or the group's key without one. -/
def labelOf (a : Axes) (row : Json) : String :=
  match a.label with
  | some field => if field.isEmpty then a.key row else (Cell.ofRow row field).display
  | none => a.key row

end Axes

/-- A group of rows under way: its key, the label of its first row, the values so far and the number
of rows. -/
structure Bucket where
  key : String
  label : String
  values : Array Float
  rows : Nat
  deriving DecidableEq, Repr

namespace Bucket

def add (v : Float) (b : Bucket) : Bucket :=
  { b with values := b.values.push v, rows := b.rows + 1 }

def point (f : AggregateFunction) (b : Bucket) : Point where
  x := b.key
  y := f.apply b.values.toList b.rows
  label := b.label
  function := f
  rowCount := b.rows
  valueCount := b.values.size

end Bucket

/-- The buckets in the order in which they were opened, and the slot at which the one of a key
stands. -/
structure Buckets where
  opened : Array Bucket
  slots : List (String × Nat)
  deriving DecidableEq, Repr

namespace Buckets

/-- The slot of a row's bucket, which is opened behind the others at its first row. -/
def slot (a : Axes) (row : Json) (bs : Buckets) : Nat × Buckets :=
  match bs.slots.lookup (a.key row) with
  | some i => (i, bs)
  | none => (bs.opened.size,
      { opened := bs.opened.push ⟨a.key row, a.labelOf row, #[], 0⟩
        slots := (a.key row, bs.opened.size) :: bs.slots })

def addRow (a : Axes) (row : Json) (bs : Buckets) : Buckets :=
  let (i, bs) := bs.slot a row
  -- a bucket stands at every slot, so that it is always one that is modified
  { bs with opened := bs.opened.modify i (Bucket.add (a.value row)) }

end Buckets

/-- The points of rows: one per X label, in the order in which the labels are first seen. -/
def aggregate (a : Axes) (rows : List Json) : List Point :=
  let buckets := rows.foldl (fun bs row => Buckets.addRow a row bs) ⟨#[], []⟩
  buckets.opened.toList.map (Bucket.point a.applied)

end Chart

end ChartFeed
