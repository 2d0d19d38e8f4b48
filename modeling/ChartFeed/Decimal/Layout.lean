import ChartFeed.Decimal.Shortest

/-!
# Number texts

* `Layout` : the decisions that turn the shortest digits of a double into a text.
* `Layout.wire` : the layout of numbers in JSON texts.
* `Layout.axis` : the layout of numbers on chart axes.
* `axisText` : the text of a number as a label.
-/

namespace ChartFeed

/-- How shortest digits are laid out. -/
structure Layout where
  /-- Whether a number `0.d₁d₂… · 10 ^ point` is written without an exponent. -/
  positional : Int → Bool
  /-- Whether whole numbers carry a fraction `.0`. -/
  wholeFraction : Bool
  /-- The choice between equally near digits. -/
  tie : Tie

namespace Layout

/-- JSON texts: an exponent from `10 ^ 16` up and below `10 ^ -5`, and a fraction on every number
without one. -/
def wire : Layout := ⟨fun point => -5 < point && point ≤ 16, true, .even⟩

/-- Chart axes: never an exponent. -/
def axis : Layout := ⟨fun _ => true, false, .up⟩

def zeros (n : Nat) : List Char := List.replicate n '0'

/-- The digits with the decimal point after the first `point` of them, padded with zeros. -/
def placePoint (wholeFraction : Bool) (ds : List Char) (point : Int) : List Char :=
  if point ≤ 0 then '0' :: '.' :: (zeros (-point).toNat ++ ds)
  else if (ds.length : Int) ≤ point then
    ds ++ zeros (point.toNat - ds.length) ++ (if wholeFraction then ['.', '0'] else [])
  else ds.take point.toNat ++ '.' :: ds.drop point.toNat

def signChar (exponent : Int) : Char := if exponent < 0 then '-' else '+'

/-- One digit, the others after a point, and the exponent under its sign. -/
def withExponent (ds : List Char) (point : Int) : List Char :=
  let mantissa := match ds with
    | d :: e :: rest => d :: '.' :: e :: rest
    | ds => ds
  let exponent := point - 1
  mantissa ++ 'e' :: signChar exponent :: Nat.toDigits 10 exponent.natAbs

def magnitude (l : Layout) (d : Decimal) : List Char :=
  if d.digits = 0 then if l.wholeFraction then ['0', '.', '0'] else ['0']
  else
    let ds := Nat.toDigits 10 d.digits
    let point : Int := ds.length + d.exponent
    if l.positional point then placePoint l.wholeFraction ds point else withExponent ds point

def text (l : Layout) (x : Float) : String :=
  String.ofList
    ((if Binary.isNegative x then ['-'] else []) ++ l.magnitude ((Binary.ofFloat x).shortest l.tie))

end Layout

/-- The text of a number as a chart label: whole numbers below `10 ^ 21` in all their digits, others
in the shortest digits that read back, never with an exponent. -/
def axisText (x : Float) : String :=
  if x.isNaN then "NaN"
  else if x.isInf then if Binary.isNegative x then "-inf" else "inf"
  else
    let b := Binary.ofFloat x
    if b.isWhole && b.toNat < Nat.pow 10 21 then
      String.ofList ((if Binary.isNegative x then ['-'] else []) ++ Nat.toDigits 10 b.toNat)
    else Layout.axis.text x

end ChartFeed
