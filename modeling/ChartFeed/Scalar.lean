import ChartFeed.Decimal.Layout
import ChartFeed.Json.Decoder
import ChartFeed.Scalar.Numeral

/-!
# Scalars

What a cell of the table is reduced to, and what a condition compares with.

* `Scalar` : a truth value, a number or a text.
* `Scalar.display` : its text, `Scalar.toNumber` its value on a numeric axis.
* `Scalar.toJson`, `Scalar.ofJson?`, `Scalar.decoder` : its JSON form.
-/

namespace ChartFeed

/-- A truth value, a number or a text. -/
inductive Scalar where
  | bool (b : Bool)
  | number (x : Float)
  | text (s : String)
  deriving DecidableEq, Repr, Inhabited

namespace Scalar

def empty : Scalar := .text ""

def text? : Scalar → Option String
  | .text s => some s
  | _ => none

/-- The empty text, and nothing else. -/
def isEmptyText : Scalar → Bool
  | .text s => s.isEmpty
  | _ => false

/-- Numbers stand for themselves, texts for the numeral that they start with, all else for zero. -/
def toNumber : Scalar → Float
  | .number x => x
  | .text s => (leadingNumber s).getD 0.0
  | .bool _ => 0.0

def display : Scalar → String
  | .bool true => "true"
  | .bool false => "false"
  | .number x => axisText x
  | .text s => s

/-- Every number of the scalar has a JSON form. -/
def IsFinite : Scalar → Prop
  | .number x => x.isFinite = true
  | _ => True

/-! ## JSON form -/

def toJson : Scalar → Json
  | .bool b => .bool b
  | .number x => .ofFloat x
  | .text s => .text s

/-- The scalar that a truth value, number or text is. -/
def ofJson? : Json → Option Scalar
  | .bool b => some (.bool b)
  | .int n => some (.number (Float.ofInt n))
  | .float x => some (.number x)
  | .text s => some (.text s)
  | _ => none

def decoder : Decoder Scalar := .whole ofJson?

end Scalar

end ChartFeed
