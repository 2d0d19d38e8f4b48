import ChartFeed.Text.Digits

/-!
# Variables

* `Variables` : names and texts from outside.
* `Variables.find?` : the text of a name in any case; a name given twice is unreadable.
* `Variables.text`, `Variables.number`, `Variables.bool` : a variable of a kind, or none when it is
  absent. A variable that is present has to be of the kind, an empty text too.
-/

namespace ChartFeed

/-- Names and texts from outside. -/
abbrev Variables := List (String × String)

inductive VariableFault where
  | repeated (name : String)
  | illWritten (name : String)
  deriving DecidableEq, Repr

namespace Variables

/-- A letter in lower case, as far as names are concerned; the sign for kelvin is a `K`. -/
def foldChar (c : Char) : Char := if c = '\u212a' then 'k' else c.toLower

def foldName (name : String) : String := name.map foldChar

def find? (vs : Variables) (name : String) : Except VariableFault (Option String) :=
  match vs.filter fun v => foldName v.1 == name with
  | [] => .ok none
  | [(_, value)] => .ok (some value)
  | _ => .error (.repeated name)

def read {α : Type} (ofText : String → Option α) (vs : Variables) (name : String) :
    Except VariableFault (Option α) := do
  match ← vs.find? name with
  | none => return none
  | some s =>
    match ofText s with
    | some a => return some a
    | none => throw (.illWritten name)

/-- A number below a bound: decimal digits behind an optional plus sign. -/
def numberOfText (bound : Nat) (s : String) : Option Nat :=
  let ds := match s.toList with
    | '+' :: ds => ds
    | ds => ds
  let n := Text.natOfDigits ds
  if !ds.isEmpty && ds.all Char.isDigit && n < bound then some n else none

def boolOfText (s : String) : Option Bool :=
  if s = "true" then some true else if s = "false" then some false else none

def text (vs : Variables) (name : String) : Except VariableFault (Option String) :=
  read some vs name

def number (bound : Nat) (vs : Variables) (name : String) : Except VariableFault (Option Nat) :=
  read (numberOfText bound) vs name

def bool (vs : Variables) (name : String) : Except VariableFault (Option Bool) :=
  read boolOfText vs name

end Variables

end ChartFeed
