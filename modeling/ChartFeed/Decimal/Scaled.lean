import ChartFeed.Decimal.Shortest

/-!
# Decimals read by scaling

JSON texts are read in two roundings: the digits that fit into a word become a double, and this is
multiplied or divided by a power of ten. For up to fifteen digits and powers up to `10 ^ 22` both
steps are exact, so that the double nearest to the decimal comes out; beyond, it can be missed by a
last place.

* `Scaled.gather` : as many digits as fit into a word.
* `Scaled.ofParts` : the decimal of the digits before and after a point and an exponent.
* `Decimal.scaled?` : the double of a decimal, none beyond the doubles.
-/

namespace ChartFeed

namespace Scaled

/-- Numbers up to here fit into a word. -/
def wordLimit : Nat := 1 <<< 64

/-- Digits put behind a number as long as it fits into a word, and the digits from the first on that
does not. -/
def gather : Nat → List Char → Nat × List Char
  | n, [] => (n, [])
  | n, d :: ds =>
    let m := 10 * n + (d.toNat - '0'.toNat)
    if m < wordLimit then gather m ds else (n, d :: ds)

/-- The decimal of whole digits, fraction digits and an exponent. Digits beyond a word are dropped:
whole ones count as zeros. -/
def ofParts (whole fraction : List Char) (exponent : Int) : Decimal :=
  let (n, wholeLeft) := gather 0 whole
  let (n, fractionLeft) := gather n fraction
  ⟨n, wholeLeft.length - (fraction.length - fractionLeft.length : Nat) + exponent⟩

/-- The largest power of ten that is a double. -/
def maxPower : Nat := 308

def powerOfTen (k : Nat) : Float := Decimal.toFloat ⟨1, k⟩

/-- A double divided by a power of ten, by no more than the largest one at a time. -/
def divide (x : Float) (k : Nat) : Float :=
  if k ≤ maxPower then x / powerOfTen k
  else if x == 0 then x
  else divide (x / powerOfTen maxPower) (k - maxPower)
termination_by k
decreasing_by
  rename_i h _
  simp only [maxPower] at h ⊢
  omega

end Scaled

/-- The double of a decimal: its digits as a double, scaled by the power of ten. There is none when
the power or the result lies beyond the doubles. -/
def Decimal.scaled? (d : Decimal) : Option Float :=
  let x := Float.ofNat d.digits
  match d.exponent with
  | .ofNat k =>
    if k ≤ Scaled.maxPower then
      let y := x * Scaled.powerOfTen k
      if y.isFinite then some y else none
    else if d.digits = 0 then some 0 else none
  | .negSucc k => some (Scaled.divide x (k + 1))

end ChartFeed
