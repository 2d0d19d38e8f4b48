/-!
# Targets of requests

* `Target` : what a request is aimed at, a path as a rule.
* `Target.ofText?` : the target that a text writes. A path may stand behind a scheme and a host, and
  a query or a fragment behind the path.
* `Host.isWritten` : the characters write a host.
-/

namespace ChartFeed

namespace Host

/-- What a reader of a host has seen: colons that may stand before a number, an opening and a
closing bracket, a percent sign, and whether the last character ended the name of a user. -/
structure Seen where
  colons : Nat
  opened : Bool
  closed : Bool
  percent : Bool
  userEnd : Bool
  deriving DecidableEq, Repr

namespace Seen

def nothing : Seen := ⟨0, false, false, false, false⟩

/-- The most colons that may stand in one part of a host. -/
def maxColons : Nat := 8

/-- A character that may stand anywhere in a host. -/
def isPlain (c : Char) : Bool := c.isAlphanum || "!$&\x27()*+,-.;=_~".toList.contains c

/-- What has been seen behind a character. Brackets and the end of a user's name start a new part,
so that colons and percent signs before them are forgotten. -/
def next? (s : Seen) (c : Char) : Option Seen :=
  let t := { s with userEnd := false }
  match c with
  | ':' => if maxColons ≤ s.colons then none else some { t with colons := s.colons + 1 }
  | '[' => if s.percent || s.opened then none else some { t with opened := true }
  | ']' =>
    if s.opened && !s.closed then some { t with closed := true, colons := 0, percent := false }
    else none
  | '@' => some { t with colons := 0, percent := false, userEnd := true }
  | '%' => some { t with percent := true }
  | c => if isPlain c then some t else none

def isFinal (s : Seen) : Bool :=
  s.opened == s.closed && s.colons ≤ 1 && !s.percent && !s.userEnd

end Seen

/-- The characters write a host, with a user in front of it and a number behind it if need be. -/
def isWritten (cs : List Char) : Bool :=
  !cs.isEmpty && (cs.foldlM Seen.next? .nothing).any Seen.isFinal

end Host

/-- What a request is aimed at. -/
inductive Target where
  /-- The service as a whole, written as a star. -/
  | service
  /-- A host alone. -/
  | host (name : String)
  /-- A path, without the host in front of it and the query behind it. -/
  | path (path : String)
  deriving DecidableEq, Repr

namespace Target

/-- The longest target in bytes. -/
def maxLength : Nat := 65534

def maxScheme : Nat := 64

def isPathChar (c : Char) : Bool := ' ' < c && !"#<>?\x60".toList.contains c

def isQueryChar (c : Char) : Bool := ' ' < c && !"\"#<>".toList.contains c

def isSchemeChar (c : Char) : Bool := c.isAlphanum || "+-.".toList.contains c

def endsHost (c : Char) : Bool := "/?#".toList.contains c

/-- Nothing is left but a fragment, which is not looked at. -/
def isFragment : List Char → Bool
  | [] => true
  | c :: _ => c == '#'

/-- The path that characters start with, if a query, a fragment or nothing follows it. -/
def readPath? (cs : List Char) : Option Target :=
  let (found, rest) := cs.span isPathChar
  let rest := match rest with
    | '?' :: query => query.dropWhile isQueryChar
    | rest => rest
  if isFragment rest then some (.path (String.ofList found)) else none

/-- A scheme that characters start with, and what follows the slashes behind it. -/
def splitScheme? (cs : List Char) : Option (List Char × List Char) :=
  match cs.span isSchemeChar with
  | (scheme, ':' :: '/' :: '/' :: rest) => some (scheme, rest)
  | _ => none

/-- The target behind a scheme: a host, which has to be there, and a path. -/
def readAbsolute? (cs : List Char) : Option Target :=
  let (name, rest) := cs.span (!endsHost ·)
  if Host.isWritten name then readPath? rest else none

def ofText? (s : String) : Option Target :=
  if maxLength < s.utf8ByteSize then none
  else
    match s.toList with
    | ['*'] => some .service
    | '/' :: cs => readPath? ('/' :: cs)
    | cs =>
      match splitScheme? cs with
      | some (scheme, rest) => if maxScheme < scheme.length then none else readAbsolute? rest
      | none => if Host.isWritten cs then some (.host s) else none

end Target

end ChartFeed
