import ChartFeed.Json.Basic
import ChartFeed.Decimal.Layout
import ChartFeed.Text.Digits

/-!
# Writing JSON texts

* `Json.compact` : the text without blanks.
* `Json.pretty` : one field or item a line, two blanks of indentation a level.
-/

namespace ChartFeed.Json

/-- A character as it stands between quotes: quote, backslash and control characters are escaped. -/
def escapeChar (c : Char) : List Char :=
  if c = '"' then ['\\', '"']
  else if c = '\\' then ['\\', '\\']
  else if c = '\x08' then ['\\', 'b']
  else if c = '\x0c' then ['\\', 'f']
  else if c = '\n' then ['\\', 'n']
  else if c = '\r' then ['\\', 'r']
  else if c = '\t' then ['\\', 't']
  else if c.toNat < 0x20 then
    ['\\', 'u', '0', '0', Text.hexDigit (c.toNat / 16), Text.hexDigit c.toNat]
  else [c]

def quote (s : String) : String := String.ofList ('"' :: (s.toList.flatMap escapeChar ++ ['"']))

def leafText : Json → String
  | .null => "null"
  | .bool true => "true"
  | .bool false => "false"
  | .int n => toString n
  | .float x => if x.isFinite then Layout.wire.text x else "null"
  | .text s => quote s
  | .list _ | .object _ => ""

mutual

/-- The text of a value without blanks. -/
def compact : Json → String
  | .list items => "[" ++ String.intercalate "," (compactItems items) ++ "]"
  | .object fields => "\x7b" ++ String.intercalate "," (compactFields fields) ++ "\x7d"
  | j => leafText j
termination_by structural j => j

def compactItems : List Json → List String
  | [] => []
  | j :: js => compact j :: compactItems js
termination_by structural js => js

def compactFields : List (String × Json) → List String
  | [] => []
  | (key, j) :: fs => (quote key ++ ":" ++ compact j) :: compactFields fs
termination_by structural fs => fs

end

/-- A line break and the indentation of a level. -/
def newline (level : Nat) : String := "\n" ++ String.ofList (List.replicate (2 * level) ' ')

/-- Lines between brackets, one level deeper than the brackets. -/
def bracketed (openBracket closeBracket : String) (level : Nat) (lines : List String) : String :=
  if lines.isEmpty then openBracket ++ closeBracket
  else openBracket ++ newline (level + 1) ++
    String.intercalate ("," ++ newline (level + 1)) lines ++ newline level ++ closeBracket

mutual

/-- The text of a value over several lines, at a level of indentation. -/
def prettyAt (level : Nat) : Json → String
  | .list items => bracketed "[" "]" level (prettyItems (level + 1) items)
  | .object fields => bracketed "\x7b" "\x7d" level (prettyFields (level + 1) fields)
  | j => leafText j
termination_by structural j => j

def prettyItems (level : Nat) : List Json → List String
  | [] => []
  | j :: js => prettyAt level j :: prettyItems level js
termination_by structural js => js

def prettyFields (level : Nat) : List (String × Json) → List String
  | [] => []
  | (key, j) :: fs => (quote key ++ ": " ++ prettyAt level j) :: prettyFields level fs
termination_by structural fs => fs

end

def pretty (j : Json) : String := prettyAt 0 j

end ChartFeed.Json
