import ChartFeed.Text.Step

/-!
# Addresses

* `IpAddress` : an address of four bytes or of eight groups, `IpAddress.text` its usual form.
* `Endpoint` : an address and the number of a socket there.
* `Endpoint.literal` : `a.b.c.d:socket` or `[groups]:socket`.
* `Endpoint.read?` : also a bare address, the last colon and a socket. Names are not looked up.
-/

namespace ChartFeed

/-- An address of four bytes or of eight groups. -/
inductive IpAddress where
  | v4 (a b c d : Nat)
  | v6 (groups : List Nat)
  deriving DecidableEq, Repr

/-- An address and the number of a socket there. The scope tells apart the links that an address may
belong to. -/
structure Endpoint where
  address : IpAddress
  scope : Nat
  socket : Nat
  deriving DecidableEq, Repr

namespace IpAddress

open Text (Step)
open Text.Step (literal digitRun orElse)

/-! ## Reading -/

/-- A byte in up to three digits, without zeros in front. -/
def octet : Step Nat := do
  let ds ← digitRun Char.isDigit
  let n := Text.natOfDigits ds
  if ds.length ≤ 3 && (ds.length == 1 || ds.head? != some '0') && n < 256 then return n else failure

def dotted : Step (Nat × Nat × Nat × Nat) := do
  let a ← octet
  literal '.'
  let b ← octet
  literal '.'
  let c ← octet
  literal '.'
  let d ← octet
  return (a, b, c, d)

def isHexDigit (c : Char) : Bool := (Text.hexDigit? c).isSome

/-- A group in up to four hexadecimal digits. -/
def group : Step Nat := do
  let ds ← digitRun isHexDigit
  if ds.length ≤ 4 then return Text.natOfHexDigits ds else failure

/-- Behind a colon, unless it is the first of its kind. -/
def separated {α : Type} (isFirst : Bool) (step : Step α) : Step α := do
  if !isFirst then literal ':'
  step

/-- As many groups as stand next, up to a limit, with colons between them, and whether the last two
are written as four bytes, after which no group follows. -/
def groups (isFirst : Bool) : Nat → List Char → List Nat × Bool × List Char
  | 0, cs => ([], false, cs)
  | limit + 1, cs =>
    match if limit = 0 then none else separated isFirst dotted cs with
    | some ((a, b, c, d), rest) => ([256 * a + b, 256 * c + d], true, rest)
    | none =>
      match separated isFirst group cs with
      | none => ([], false, cs)
      | some (g, rest) =>
        let (gs, isDotted, rest) := groups false limit rest
        (g :: gs, isDotted, rest)

/-- Eight groups, of which a run of zeros may be left out: two colons stand for at least one
group. -/
def grouped : Step (List Nat) := fun cs =>
  let (head, isDotted, rest) := groups true 8 cs
  if head.length = 8 then some (head, rest)
  else if isDotted then none
  else
    match rest with
    | ':' :: ':' :: rest =>
      let (tail, _, rest) := groups true (7 - head.length) rest
      some (head ++ List.replicate (8 - head.length - tail.length) 0 ++ tail, rest)
    | _ => none

def bare : Step IpAddress := fun cs =>
  match dotted cs with
  | some ((a, b, c, d), rest) => some (.v4 a b c d, rest)
  | none => (grouped cs).map fun (gs, rest) => (.v6 gs, rest)

/-! ## Text -/

def dottedText (a b c d : Nat) : String := ".".intercalate ([a, b, c, d].map toString)

def groupText (gs : List Nat) : String :=
  ":".intercalate (gs.map fun g => String.ofList (Nat.toDigits 16 g))

/-- Where the first of the longest runs of zeros starts, and how long it is. -/
def longestRun (gs : List Nat) : Nat × Nat :=
  (List.range gs.length).foldl (fun (start, length) i =>
    let run := ((gs.drop i).takeWhile (· == 0)).length
    if length < run then (i, run) else (start, length)) (0, 0)

/-- The text of eight groups: addresses of four bytes that are mapped into them show these, else the
first of the longest runs of at least two zeros is left out. -/
def groupedText : List Nat → String
  | [0, 0, 0, 0, 0, 65535, g, h] =>
    "::ffff:" ++ dottedText (g / 256) (g % 256) (h / 256) (h % 256)
  | gs =>
    let (start, length) := longestRun gs
    if length < 2 then groupText gs
    else groupText (gs.take start) ++ "::" ++ groupText (gs.drop (start + length))

end IpAddress

namespace Endpoint

open Text (Step)
open Text.Step (digitRun orElse)

/-- A number below a bound, zeros in front allowed. -/
def numberBelow (bound : Nat) : Step Nat := do
  let n := Text.natOfDigits (← digitRun Char.isDigit)
  if n < bound then return n else failure

def socketPart : Step Nat := do
  Text.Step.literal ':'
  numberBelow (1 <<< 16)

/-- The scope of an address, zero where there is none. -/
def scopePart : Step Nat :=
  orElse (do Text.Step.literal '%'; numberBelow (1 <<< 32)) 0

def literalV4 : Step Endpoint := do
  let (a, b, c, d) ← IpAddress.dotted
  return ⟨.v4 a b c d, 0, ← socketPart⟩

/-- Eight groups in brackets and a socket. -/
def literalV6 : Step Endpoint := do
  Text.Step.literal '['
  let groups ← IpAddress.grouped
  let scope ← scopePart
  Text.Step.literal ']'
  return ⟨.v6 groups, scope, ← socketPart⟩

/-- An address and a socket as they are usually written. -/
def literal (cs : List Char) : Option Endpoint :=
  literalV4.complete? cs <|> literalV6.complete? cs

/-- A number below a bound with an optional plus sign. -/
def looseNumber (bound : Nat) (cs : List Char) : Option Nat :=
  (numberBelow bound).complete? (match cs with
    | '+' :: ds => ds
    | ds => ds)

def splitLast (cs : List Char) : Option (List Char × List Char) :=
  match cs.reverse.span (· != ':') with
  | (socket, _ :: host) => some (host.reverse, socket.reverse)
  | (_, []) => none

def read? (s : String) : Option Endpoint :=
  literal s.toList <|> do
    let (host, socket) ← splitLast s.toList
    return ⟨← IpAddress.bare.complete? host, 0, ← looseNumber (1 <<< 16) socket⟩

def text (e : Endpoint) : String :=
  match e.address with
  | .v4 a b c d => IpAddress.dottedText a b c d ++ ":" ++ toString e.socket
  | .v6 groups =>
    "[" ++ IpAddress.groupedText groups ++ (if e.scope = 0 then "" else "%" ++ toString e.scope) ++
      "]:" ++ toString e.socket

end Endpoint

end ChartFeed
