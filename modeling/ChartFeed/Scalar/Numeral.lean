import ChartFeed.Decimal.Shortest
import ChartFeed.Text.Blank
import ChartFeed.Text.Digits

/-!
# Numerals at the start of a text

A numeral is `[+-]? (D+ (. D*)? | . D+) ([eE] [+-]? D+)?` over the ASCII digits `D`.

* `Numeral` : its parts, `Numeral.chars` its characters, `Numeral.value` the double it denotes.
* `Numeral.read` : the longest numeral at the start of a text, and what follows it.
* `leadingNumber` : the value of the longest numeral after leading blanks.
-/

namespace ChartFeed

/-- The part of a numeral from the `e` on. -/
structure Numeral.Exponent where
  mark : Char
  sign : Option Char
  digits : List Char
  deriving DecidableEq, Repr

/-- A numeral in its parts. -/
structure Numeral where
  sign : Option Char
  whole : List Char
  point : Bool
  fraction : List Char
  exponent : Option Numeral.Exponent
  deriving DecidableEq, Repr

namespace Numeral

def Exponent.chars (e : Exponent) : List Char := e.mark :: (e.sign.toList ++ e.digits)

def chars (n : Numeral) : List Char :=
  n.sign.toList ++ n.whole ++ (if n.point then ['.'] else []) ++ n.fraction ++
    (match n.exponent with
      | some e => e.chars
      | none => [])

/-- The power of ten that the exponent stands for. -/
def Exponent.power (e : Exponent) : Int :=
  if e.sign = some '-' then -(Text.natOfDigits e.digits : Int) else Text.natOfDigits e.digits

/-- The decimal that the numeral denotes, its sign aside. -/
def decimal (n : Numeral) : Decimal where
  digits := Text.natOfDigits (n.whole ++ n.fraction)
  exponent := (match n.exponent with
    | some e => e.power
    | none => 0) - n.fraction.length

/-- The double nearest to what the numeral denotes, infinite beyond the doubles. -/
def value (n : Numeral) : Float := n.decimal.toSignedFloat (n.sign == some '-')

/-! ## Reading -/

def readSign : List Char → Option Char × List Char
  | '+' :: cs => (some '+', cs)
  | '-' :: cs => (some '-', cs)
  | cs => (none, cs)

/-- A point and the digits after it, of which there may be none. -/
def readFraction : List Char → Bool × List Char × List Char
  | '.' :: cs => (true, cs.takeWhile Char.isDigit, cs.dropWhile Char.isDigit)
  | cs => (false, [], cs)

/-- An exponent with at least one digit, if there is one. -/
def readExponent : List Char → Option Exponent × List Char
  | [] => (none, [])
  | c :: cs =>
    if c = 'e' ∨ c = 'E' then
      let (sign, rest) := readSign cs
      match rest.takeWhile Char.isDigit with
      | [] => (none, c :: cs)
      | ds => (some ⟨c, sign, ds⟩, rest.dropWhile Char.isDigit)
    else (none, c :: cs)

/-- The longest numeral at the start of the characters, and what follows it. -/
def read (cs : List Char) : Option (Numeral × List Char) :=
  let (sign, cs) := readSign cs
  let whole := cs.takeWhile Char.isDigit
  let (point, fraction, cs) := readFraction (cs.dropWhile Char.isDigit)
  if whole.isEmpty && fraction.isEmpty then none
  else
    let (exponent, rest) := readExponent cs
    some (⟨sign, whole, point, fraction, exponent⟩, rest)

end Numeral

/-- The value of the longest numeral after leading blanks. -/
def leadingNumber (s : String) : Option Float :=
  (Numeral.read (Text.dropBlanks s.toList)).map fun (n, _) => n.value

end ChartFeed
