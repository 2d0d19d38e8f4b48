/-!
# Doubles as decimals

* `Binary` : a finite magnitude `mantissa · 2 ^ exponent`; `Binary.ofFloat` reads it off the bits.
* `Decimal` : `digits · 10 ^ exponent`.
* `Binary.shortest` : the decimal with the fewest digits in the interval of reals that round to the
  magnitude, the nearest of those to it.
* `Decimal.toFloat` : the double nearest to a decimal.
-/

namespace ChartFeed

/-- The magnitude `mantissa · 2 ^ exponent`. -/
structure Binary where
  mantissa : Nat
  exponent : Int
  deriving DecidableEq, Repr

/-- The magnitude `digits · 10 ^ exponent`. -/
structure Decimal where
  digits : Nat
  exponent : Int
  deriving DecidableEq, Repr

/-- Which of two equally near neighbours is taken. -/
inductive Tie
  | even
  | up
  deriving DecidableEq, Repr

namespace Binary

/-- The sign of a double, set for negative zero too. -/
def isNegative (x : Float) : Bool := x.toBits.toNat >>> 63 == 1

def ofFloat (x : Float) : Binary :=
  let bits : Nat := x.toBits.toNat
  let biased : Nat := (bits >>> 52) % (1 <<< 11)
  let fraction : Nat := bits % (1 <<< 52)
  if biased = 0 then ⟨fraction, -1074⟩ else ⟨(1 <<< 52) + fraction, (biased : Int) - 1075⟩

/-- A power of two above the subnormal range: the gap below it is half the gap above. -/
def atStep (b : Binary) : Bool := b.mantissa == 1 <<< 52 && decide (-1074 < b.exponent)

/-- The numerator of `n · 2 ^ e / 10 ^ k` over the denominator `scaleDen e k`. -/
def scaleNum (n : Nat) (e k : Int) : Nat := (n <<< e.toNat) * Nat.pow 10 (-k).toNat

/-- The denominator that belongs to `scaleNum`. -/
def scaleDen (e k : Int) : Nat := (1 <<< (-e).toNat) * Nat.pow 10 k.toNat

/-- The multiple `d · 10 ^ k` rounds to the magnitude: it lies between the midpoints to the
neighbouring magnitudes, the midpoints themselves counting for an even mantissa. -/
def rounds (b : Binary) (d : Nat) (k : Int) : Bool :=
  let e := b.exponent - 2
  let lo := scaleNum (4 * b.mantissa - (if b.atStep then 1 else 2)) e k
  let hi := scaleNum (4 * b.mantissa + 2) e k
  let at_ := d * scaleDen e k
  if b.mantissa % 2 = 0 then lo ≤ at_ && at_ ≤ hi else lo < at_ && at_ < hi

/-- The multiple of `10 ^ k` nearest to the magnitude among its two neighbours that round to it. -/
def onGrid (tie : Tie) (b : Binary) (k : Int) : Option Nat :=
  let num := scaleNum b.mantissa b.exponent k
  let den := scaleDen b.exponent k
  let below := num / den
  let above := below + 1
  match b.rounds below k, b.rounds above k with
  | true, true =>
    let rest := 2 * (num % den)
    if rest < den then some below
    else if den < rest then some above
    else match tie with
      | .up => some above
      | .even => some (if below % 2 = 0 then below else above)
  | true, false => some below
  | false, true => some above
  | false, false => none

/-- The first grid with a hit, from `10 ^ k` on towards finer ones. -/
def search (tie : Tie) (b : Binary) : Nat → Int → Option Decimal
  | 0, _ => none
  | fuel + 1, k =>
    match b.onGrid tie k with
    | some d => if d = 0 then search tie b fuel (k - 1) else some ⟨d, k⟩
    | none => search tie b fuel (k - 1)

/-- An exponent of ten above the magnitude: `10 ^ ceiling` exceeds it. -/
def ceiling (b : Binary) : Int := (Nat.log2 b.mantissa + 1 + b.exponent) * 30103 / 100000 + 1

/-- The digits with zeros at the end moved into the exponent. -/
def stripZeros : Nat → Decimal → Decimal
  | 0, d => d
  | fuel + 1, d =>
    if d.digits % 10 = 0 then stripZeros fuel ⟨d.digits / 10, d.exponent + 1⟩ else d

/-- The fewest digits that read back, and of those the nearest to the magnitude; zero has no digits.
Seventeen digits always suffice, so the search starts above the magnitude and ends within the
fuel. -/
def shortest (tie : Tie) (b : Binary) : Decimal :=
  if b.mantissa = 0 then ⟨0, 0⟩
  else match search tie b 24 (b.ceiling + 1) with
    | some d => stripZeros 20 d
    | none => ⟨0, 0⟩

/-- The whole number that the magnitude is, for a magnitude without fraction. -/
def toNat (b : Binary) : Nat := (b.mantissa <<< b.exponent.toNat) >>> (-b.exponent).toNat

def isWhole (b : Binary) : Bool := b.mantissa % (1 <<< (-b.exponent).toNat) == 0

end Binary

namespace Decimal

/-- The number of decimal digits, at least one. -/
def width (n : Nat) : Nat := (Nat.toDigits 10 n).length

/-- The double nearest to the decimal. Above every double it is infinity and below half of the
smallest one zero, so that powers of ten stay small. -/
def toFloat (d : Decimal) : Float :=
  let top : Int := width d.digits + d.exponent
  if d.digits = 0 then 0.0
  else if 310 < top then 1.0 / 0.0
  else if top < -330 then 0.0
  else Float.ofScientific d.digits (decide (d.exponent < 0)) d.exponent.natAbs

/-- The double nearest to the decimal under a sign. -/
def toSignedFloat (negative : Bool) (d : Decimal) : Float :=
  if negative then -d.toFloat else d.toFloat

end Decimal

end ChartFeed
