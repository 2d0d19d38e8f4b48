import ChartFeed.Calendar.Instant
import ChartFeed.Text.Blank
import ChartFeed.Text.Step

/-!
# Reading dates

* `Instant.read?` : a text as a point in time, in the first of three forms that fits.
* `Instant.ofStamped?` : `YYYY-MM-DDThh:mm:ss`, a fraction and a zone, every part at its full width.
* `Instant.ofDateTime?` : `Y-m-dTH:M:S` in universal time, where blanks may precede a number.
* `Instant.ofDate?` : `Y-m-d`, midnight in universal time.
-/

namespace ChartFeed.Instant

open Text (Step)
open Text.Step (literal oneOf digits digitsUpTo atEnd)

/-- Blanks, then a number of at most so many digits. -/
def looseNumber (width : Nat) : Step Nat := fun cs => digitsUpTo width (Text.dropBlanks cs)

/-! ## Stamps with a zone -/

/-- A point and digits after it: the nanoseconds, digits after the ninth dropped. -/
def fraction : Step Nat
  | '.' :: cs =>
    let ds := cs.takeWhile Char.isDigit
    if ds.isEmpty then none
    else
      let kept := ds.take 9
      some (Text.natOfDigits kept * Nat.pow 10 (9 - kept.length), cs.drop ds.length)
  | cs => some (0, cs)

/-- A zone: how many seconds its clocks are ahead. -/
def zone : Step Int
  | [] => none
  | c :: cs =>
    if c = 'Z' ∨ c = 'z' then some (0, cs)
    else if c = '+' ∨ c = '-' ∨ c = '\u2212' then do
      let (hours, cs) ← digits 2 cs
      let (_, cs) ← literal ':' cs
      let (minutes, cs) ← digits 2 cs
      let ahead : Int := 3600 * hours + 60 * minutes
      if hours ≤ 23 ∧ minutes ≤ 59 then some (if c = '+' then ahead else -ahead, cs) else none
    else none

/-- The point in time, if date and time exist. -/
def ofParts? (d : Date) (c : Clock) (offset : Int) : Option Instant :=
  if d.isValid && c.isValid then some (ofLocal d c offset) else none

/-- A date, a time and a zone, every part at its full width. -/
def stamped : Step (Option Instant) := do
  let year ← digits 4
  literal '-'
  let month ← digits 2
  literal '-'
  let day ← digits 2
  let _ ← oneOf ['T', 't', ' ']
  let hour ← digits 2
  literal ':'
  let minute ← digits 2
  literal ':'
  let second ← digits 2
  let nanos ← fraction
  let offset ← zone
  atEnd
  return ofParts? ⟨year, month, day⟩ ⟨hour, minute, second, nanos⟩ offset

def ofStamped? (cs : List Char) : Option Instant := (stamped.run' cs).join

/-! ## Universal time -/

def yearInRange (year : Int) : Bool := -262143 ≤ year && year ≤ 262142

/-- A year: at most four digits, or any number of them after a sign. -/
def year : Step Int := fun cs =>
  match Text.dropBlanks cs with
  | '+' :: cs => (fun (n, rest) => ((n : Int), rest)) <$> digitsUpTo cs.length cs
  | '-' :: cs => (fun (n, rest) => (-(n : Int), rest)) <$> digitsUpTo cs.length cs
  | cs => (fun (n, rest) => ((n : Int), rest)) <$> digitsUpTo 4 cs

/-- A date with numbers of any width. -/
def looseDate : Step Date := do
  let year ← year
  literal '-'
  let month ← looseNumber 2
  literal '-'
  let day ← looseNumber 2
  if yearInRange year then return ⟨year, month, day⟩ else failure

def looseClock : Step Clock := do
  let hour ← looseNumber 2
  literal ':'
  let minute ← looseNumber 2
  literal ':'
  let second ← looseNumber 2
  return ⟨hour, minute, second, 0⟩

def dateTime : Step (Option Instant) := do
  let date ← looseDate
  literal 'T'
  let clock ← looseClock
  atEnd
  return ofParts? date clock 0

def plainDate : Step (Option Instant) := do
  let date ← looseDate
  atEnd
  return ofParts? date ⟨0, 0, 0, 0⟩ 0

def ofDateTime? (cs : List Char) : Option Instant := (dateTime.run' cs).join

def ofDate? (cs : List Char) : Option Instant := (plainDate.run' cs).join

/-- A text as a point in time, blanks around it aside. -/
def read? (s : String) : Option Instant :=
  let cs := Text.trimChars s.toList
  ofStamped? cs <|> ofDateTime? cs <|> ofDate? cs

end ChartFeed.Instant
