import ChartFeed.Json.Doc
import ChartFeed.Decimal.Scaled
import ChartFeed.Text.Digits

/-!
# Reading JSON texts

* `Doc.read` : the document at the start of a text, and what follows it.
* `Doc.ofText` : the document that a whole text is; anything but blanks after it makes it malformed.
* `Doc.maxDepth` : how deeply lists and objects may be nested.

A reader step answers the document and the rest of the text; no rest means that the text broke off.
-/

namespace ChartFeed.Doc

/-- Lists and objects nested deeper than this are not read. -/
def maxDepth : Nat := 127

/-- The four characters that may stand between the tokens of a JSON text. -/
def isSpace (c : Char) : Bool := c == ' ' || c == '\n' || c == '\r' || c == '\t'

/-- The text from its first token on. -/
def skipSpaces (cs : List Char) : List Char := cs.dropWhile isSpace

def afterWord? (word cs : List Char) : Option (List Char) :=
  if word.isPrefixOf cs then some (cs.drop word.length) else none

/-! ## Numbers -/

/-- The digits after a point; a point without a digit after it is no fraction. -/
def readFraction : List Char → Option (List Char × List Char)
  | '.' :: cs =>
    match cs.span Char.isDigit with
    | ([], _) => none
    | (ds, rest) => some (ds, rest)
  | cs => some ([], cs)

def readExponentDigits (negative : Bool) (cs : List Char) : Option (Option Int × List Char) :=
  match cs.span Char.isDigit with
  | ([], _) => none
  | (ds, rest) =>
    let n : Int := Text.natOfDigits ds
    some (some (if negative then -n else n), rest)

/-- The exponent after `e`, if there is one; an `e` without digits is none. -/
def readExponent : List Char → Option (Option Int × List Char)
  | 'e' :: cs | 'E' :: cs =>
    match cs with
    | '-' :: ds => readExponentDigits true ds
    | '+' :: ds => readExponentDigits false ds
    | ds => readExponentDigits false ds
  | cs => some (none, cs)

/-- The whole part: no digit follows a leading zero. -/
def readWhole (cs : List Char) : Option (List Char × List Char) :=
  match cs.span Char.isDigit with
  | ([], _) => none
  | ('0' :: _ :: _, _) => none
  | (ds, rest) => some (ds, rest)

/-- A decimal as a document: a number beyond the doubles has no value. -/
def ofDecimal (negative : Bool) (d : Decimal) : Doc :=
  match d.scaled? with
  | some x => .float (if negative then -x else x)
  | none => .unreadable

/-- A whole number: in the range of 64-bit words as it is; beyond it, and for minus zero, a
double. -/
def wholeNumber (negative : Bool) (ds : List Char) : Doc :=
  let n := Text.natOfDigits ds
  let fits := if negative then 0 < n && n ≤ 1 <<< 63 else n < 1 <<< 64
  if fits then .int (if negative then -n else n) else ofDecimal negative (Scaled.ofParts ds [] 0)

/-- The number at the start of a text, after its sign. -/
def readNumber (negative : Bool) (cs : List Char) : Doc × Option (List Char) :=
  match readWhole cs with
  | none => (.broken, none)
  | some (whole, cs) =>
    match readFraction cs with
    | none => (.broken, none)
    | some (fraction, cs) =>
      match readExponent cs with
      | none => (.broken, none)
      | some (exponent, rest) =>
        if fraction.isEmpty && exponent.isNone then (wholeNumber negative whole, some rest)
        else (ofDecimal negative (Scaled.ofParts whole fraction (exponent.getD 0)), some rest)

/-! ## Texts -/

/-- One character of a quoted text, or one UTF-16 unit written as an escape. -/
inductive Piece where
  | char (c : Char)
  | unit (n : Nat)

/-- The unit that four hexadecimal digits denote. -/
def hexUnit? (a b c d : Char) : Option Nat := do
  return 4096 * (← Text.hexDigit? a) + 256 * (← Text.hexDigit? b) +
    16 * (← Text.hexDigit? c) + (← Text.hexDigit? d)

/-- The character behind a backslash and a letter. -/
def escape? : Char → Option Char
  | '"' => some '"'
  | '\\' => some '\\'
  | '/' => some '/'
  | 'b' => some '\x08'
  | 'f' => some '\x0c'
  | 'n' => some '\n'
  | 'r' => some '\r'
  | 't' => some '\t'
  | _ => none

/-- The pieces up to the closing quote, and the text after it. -/
def readPieces : List Char → Option (List Piece × List Char)
  | [] => none
  | '"' :: rest => some ([], rest)
  | '\\' :: 'u' :: a :: b :: c :: d :: rest =>
    match hexUnit? a b c d, readPieces rest with
    | some n, some (pieces, rest) => some (.unit n :: pieces, rest)
    | _, _ => none
  | '\\' :: c :: rest =>
    match escape? c, readPieces rest with
    | some c, some (pieces, rest) => some (.char c :: pieces, rest)
    | _, _ => none
  | c :: rest =>
    if c.toNat < 0x20 then none
    else match readPieces rest with
      | some (pieces, rest) => some (.char c :: pieces, rest)
      | none => none

/-- The characters of the pieces: a high and a low surrogate make one, a lone one makes none. -/
def joinPieces : List Piece → Option (List Char)
  | [] => some []
  | .char c :: rest => (c :: ·) <$> joinPieces rest
  | .unit hi :: .unit lo :: rest =>
    if 0xD800 ≤ hi && hi < 0xDC00 then
      if 0xDC00 ≤ lo && lo < 0xE000 then
        (Char.ofNat (0x10000 + (hi - 0xD800) * 0x400 + (lo - 0xDC00)) :: ·) <$> joinPieces rest
      else none
    else if 0xDC00 ≤ hi && hi < 0xE000 then none
    else (Char.ofNat hi :: ·) <$> joinPieces (.unit lo :: rest)
  | .unit n :: rest =>
    if 0xD800 ≤ n && n < 0xE000 then none else (Char.ofNat n :: ·) <$> joinPieces rest

/-- The text after an opening quote, `none` where it stands for no text. -/
def readText (cs : List Char) : Option (Option String × List Char) :=
  (readPieces cs).map fun (pieces, rest) => (String.ofList <$> joinPieces pieces, rest)

/-! ## Lists and objects -/

/-- A list or object at a depth, and the rest of the text after it. -/
def nested (depth : Nat) (d : Doc) (rest : Option (List Char)) : Doc × Option (List Char) :=
  if maxDepth < depth then (.deep rest.isSome, rest) else (d, rest)

mutual

/-- The document at the start of a text, at a depth; the fuel bounds the steps. -/
def readValue : Nat → Nat → List Char → Doc × Option (List Char)
  | 0, _, _ => (.broken, none)
  | fuel + 1, depth, cs =>
    match skipSpaces cs with
    | [] => (.broken, none)
    | '"' :: cs =>
      match readText cs with
      | none => (.broken, none)
      | some (none, rest) => (.unreadable, some rest)
      | some (some s, rest) => (.text s, some rest)
    | '[' :: cs =>
      match skipSpaces cs with
      | ']' :: rest => nested (depth + 1) (.list []) (some rest)
      | cs =>
        let (items, rest) := readItems fuel (depth + 1) cs
        nested (depth + 1) (.list items) rest
    | '\x7b' :: cs =>
      match skipSpaces cs with
      | '\x7d' :: rest => nested (depth + 1) (.object []) (some rest)
      | cs =>
        let (fields, rest) := readFields fuel (depth + 1) cs
        nested (depth + 1) (.object fields) rest
    | '-' :: cs => readNumber true cs
    | c :: cs =>
      if c.isDigit then readNumber false (c :: cs)
      else match afterWord? "null".toList (c :: cs), afterWord? "true".toList (c :: cs),
          afterWord? "false".toList (c :: cs) with
        | some rest, _, _ => (.null, some rest)
        | _, some rest, _ => (.bool true, some rest)
        | _, _, some rest => (.bool false, some rest)
        | none, none, none => (.broken, none)

/-- The items up to the closing bracket, of which there is at least one. -/
def readItems : Nat → Nat → List Char → List Doc × Option (List Char)
  | 0, _, _ => ([.broken], none)
  | fuel + 1, depth, cs =>
    match readValue fuel depth cs with
    | (d, none) => ([d], none)
    | (d, some rest) =>
      match skipSpaces rest with
      | ']' :: rest => ([d], some rest)
      | ',' :: cs =>
        let (items, rest) := readItems fuel depth cs
        (d :: items, rest)
      | _ => ([d, .broken], none)

/-- The fields up to the closing brace, of which there is at least one. -/
def readFields : Nat → Nat → List Char → List (Option String × Doc) × Option (List Char)
  | 0, _, _ => ([(none, .broken)], none)
  | fuel + 1, depth, cs =>
    match skipSpaces cs with
    | '"' :: cs =>
      match readText cs with
      | none => ([(none, .broken)], none)
      | some (key, rest) =>
        match skipSpaces rest with
        | ':' :: cs =>
          match readValue fuel depth cs with
          | (d, none) => ([(key, d)], none)
          | (d, some rest) =>
            match skipSpaces rest with
            | '\x7d' :: rest => ([(key, d)], some rest)
            | ',' :: cs =>
              let (fields, rest) := readFields fuel depth cs
              ((key, d) :: fields, rest)
            | _ => ([(key, d), (none, .broken)], none)
        | _ => ([(key, .broken)], none)
    | _ => ([(none, .broken)], none)

end

/-- The document at the start of a text, and what follows it. -/
def read (s : String) : Doc × Option (List Char) :=
  readValue (2 * s.length + 2) 0 s.toList

/-- The document that a whole text is, decoded; only blanks may follow it. -/
def ofText {α : Type} (decode : Doc → Except Fault α) (s : String) : Except Fault α := do
  let (d, rest) := read s
  let a ← decode d
  match rest with
  | some rest => if (skipSpaces rest).isEmpty then return a else throw .malformed
  | none => throw .malformed

end ChartFeed.Doc

namespace ChartFeed.Json

/-- The value that a whole text is. -/
def parse? (s : String) : Option Json := (Doc.ofText Json.ofDoc s).toOption

end ChartFeed.Json
