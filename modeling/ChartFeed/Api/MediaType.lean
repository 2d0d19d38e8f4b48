/-!
# Media types

A media type is `type/subtype` and parameters, each behind a semicolon: `name=value`, where the
value is a token or stands between quotes.

* `MediaType.parse?` : type and subtype of a text whose parameters are well-formed.
* `MediaType.isJson` : `application/json` or `application/…+json`, in any case.
-/

namespace ChartFeed

/-- A media type without its parameters. -/
structure MediaType where
  type : String
  subtype : String
  deriving DecidableEq, Repr

namespace MediaType

def isTokenChar (c : Char) : Bool := c.isAlphanum || "!#$%&\x27*+-.^_\x60|~".toList.contains c

def isQuotable (c : Char) : Bool := 31 < c.toNat && c.toNat != 127

/-! ## Parameters -/

/-- Where in a list of parameters a reader is. -/
inductive Spot where
  /-- Before the name of a parameter, where blanks may stand. -/
  | gap
  | name
  | valueStart
  | value
  | quoteStart
  | quoted
  | quoteEnd
  deriving DecidableEq, Repr

namespace Spot

/-- The spot behind a character. A quote right behind the opening one is part of the value. -/
def next? : Spot → Char → Option Spot
  | gap, c => if c = ' ' then some gap else if isTokenChar c then some name else none
  | name, c => if isTokenChar c then some name else if c = '=' then some valueStart else none
  | valueStart, c => if c = '"' then some quoteStart else if isTokenChar c then some value else none
  | value, c => if isTokenChar c then some value else if c = ';' then some gap else none
  | quoteStart, c => if isQuotable c then some quoted else none
  | quoted, c => if c = '"' then some quoteEnd else if isQuotable c then some quoted else none
  | quoteEnd, c => if c = ';' then some gap else if c = ' ' then some quoteEnd else none

/-- The list of parameters may end here. -/
def isFinal : Spot → Bool
  | gap | valueStart | value | quoteEnd => true
  | name | quoteStart | quoted => false

end Spot

/-- The parameters behind the first semicolon are well-formed. -/
def areParameters (cs : List Char) : Bool := (cs.foldlM Spot.next? .gap).any Spot.isFinal

/-! ## Types -/

/-- The type and subtype of a text. Only a subtype without parameters may be empty. -/
def parse? (s : String) : Option MediaType :=
  let (type, rest) := s.toList.span isTokenChar
  match type, rest with
  | _ :: _, '/' :: rest =>
    let (subtype, rest) := rest.span isTokenChar
    let parsed : MediaType := ⟨String.ofList type, String.ofList subtype⟩
    match subtype, rest with
    | _, [] => some parsed
    | _ :: _, ';' :: params => if areParameters params then some parsed else none
    | _, _ => none
  | _, _ => none

/-- The parts of a subtype before and after its last plus sign; one in front does not count. -/
def suffixed (subtype : List Char) : List Char × Option (List Char) :=
  match subtype.reverse.span (· != '+') with
  | (suffix, _ :: c :: head) => ((c :: head).reverse, some suffix.reverse)
  | _ => (subtype, none)

/-- The characters spell a word, in any case. -/
def spells (word : String) (cs : List Char) : Bool := cs.map Char.toLower == word.toList

/-- A media type whose bodies are JSON. -/
def isJson (m : MediaType) : Bool :=
  let (head, suffix) := suffixed m.subtype.toList
  spells "application" m.type.toList && (spells "json" head || suffix.any (spells "json"))

end MediaType

end ChartFeed
