import ChartFeed.Text.Digits

/-!
# Reading from the start of a text

* `Text.Step` : reads an `α` off the start of characters and answers it with the rest.
* `Step.literal`, `Step.oneOf`, `Step.digits`, `Step.digitsUpTo`, `Step.atEnd` : the steps that
  others are made of.
* `Step.complete?` : what a step reads when nothing may be left.
-/

namespace ChartFeed.Text

/-- Reads an `α` off the start of characters. -/
abbrev Step (α : Type) := StateT (List Char) Option α

namespace Step

variable {α : Type}

def literal (c : Char) : Step Unit
  | [] => none
  | d :: cs => if c = d then some ((), cs) else none

def oneOf (allowed : List Char) : Step Char
  | [] => none
  | c :: cs => if allowed.contains c then some (c, cs) else none

/-- All digits that stand next, of which there is at least one. -/
def digitRun (isDigit : Char → Bool) : Step (List Char) := fun cs =>
  match cs.span isDigit with
  | ([], _) => none
  | (ds, rest) => some (ds, rest)

/-- Exactly so many digits, as a number. -/
def digits (width : Nat) : Step Nat := fun cs =>
  let ds := cs.take width
  if ds.length = width ∧ ds.all Char.isDigit then some (natOfDigits ds, cs.drop width) else none

/-- One digit or more, but no more than so many, as a number. -/
def digitsUpTo (width : Nat) : Step Nat := fun cs =>
  let ds := (cs.take width).takeWhile Char.isDigit
  if ds.isEmpty then none else some (natOfDigits ds, cs.drop ds.length)

def atEnd : Step Unit
  | [] => some ((), [])
  | _ :: _ => none

/-- What the step reads, or what stands for it where it does not fit. -/
def orElse (step : Step α) (default : α) : Step α := fun cs =>
  some ((step cs).getD (default, cs))

/-- What a step reads off characters of which nothing is left. -/
def complete? (step : Step α) (cs : List Char) : Option α :=
  match step cs with
  | some (a, []) => some a
  | _ => none

end Step

end ChartFeed.Text
