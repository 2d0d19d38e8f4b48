/-!
# Blank characters and trimming

* `Text.isBlank c` : `c` has the Unicode property White_Space.
* `Text.trimStart`, `Text.trim` : drop the blank characters at the start, or at both ends, of a text.
* `Text.IsTrimmed` : a text with no blank character at either end; `trim` produces such texts.
-/

namespace ChartFeed.Text

/-- The code point ranges of the Unicode property White_Space, ends included. -/
def blankRanges : List (Nat × Nat) :=
  [(0x9, 0xD), (0x20, 0x20), (0x85, 0x85), (0xA0, 0xA0), (0x1680, 0x1680), (0x2000, 0x200A),
    (0x2028, 0x2029), (0x202F, 0x202F), (0x205F, 0x205F), (0x3000, 0x3000)]

/-- White space in the sense of Unicode. -/
def isBlank (c : Char) : Bool :=
  blankRanges.any fun (lo, hi) => lo ≤ c.toNat && c.toNat ≤ hi

/-- Twenty-five code points are blank. -/
example : (blankRanges.map fun (lo, hi) => hi - lo + 1).sum = 25 := rfl

/-! ## Lists of characters -/

def dropBlanks (cs : List Char) : List Char := cs.dropWhile isBlank

def dropBlanksEnd (cs : List Char) : List Char := (dropBlanks cs.reverse).reverse

def trimChars (cs : List Char) : List Char := dropBlanksEnd (dropBlanks cs)

/-! ## Texts -/

def trimStart (s : String) : String := String.ofList (dropBlanks s.toList)

def trim (s : String) : String := String.ofList (trimChars s.toList)

def isAllBlank (s : String) : Bool := (trim s).isEmpty

/-- No blank character stands at either end. -/
def IsTrimmed (s : String) : Prop :=
  (∀ c ∈ s.toList.head?, isBlank c = false) ∧ ∀ c ∈ s.toList.getLast?, isBlank c = false

/-- The text with its ASCII capitals lowered. -/
def lowerAscii (s : String) : String := s.map Char.toLower

/-- The text with its ASCII letters raised. -/
def upperAscii (s : String) : String := s.map Char.toUpper

/-- The needle occurs in the characters as an uninterrupted run. -/
def containsRun (needle : List Char) : List Char → Bool
  | [] => needle.isEmpty
  | c :: cs => needle.isPrefixOf (c :: cs) || containsRun needle cs

/-- The parts between separators, in order; a text without one is its own single part. -/
def splitOnChar (sep : Char) : List Char → List (List Char)
  | [] => [[]]
  | c :: cs =>
    if c = sep then [] :: splitOnChar sep cs
    else match splitOnChar sep cs with
      | [] => [[c]]
      | part :: parts => (c :: part) :: parts

theorem splitOnChar_ne_nil (sep : Char) (cs : List Char) : splitOnChar sep cs ≠ [] := by
  induction cs with
  | nil => simp [splitOnChar]
  | cons c cs ih =>
    unfold splitOnChar
    split
    · simp
    · split <;> simp

end ChartFeed.Text
