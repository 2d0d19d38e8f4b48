import ChartFeed.Json.Doc

/-!
# Decoding documents

* `Decoder α` : reads an `α` off a document or names the fault.
* `Decoder.text`, `bool`, `natBelow`, `int64`, `json`, `listOf`, `optional`, `tagged` : the leaves.
* `Decoder.record` : a record written as an object or as the list of its fields. Fields are read in
  the order of the text; unknown fields are passed over, a repeated one is a mismatch, and whether a
  required one is missing is asked last.
-/

namespace ChartFeed

/-- Reads an `α` off a document. -/
abbrev Decoder (α : Type) := Doc → Except Fault α

namespace Decoder

def text : Decoder String
  | .text s => .ok s
  | d => .error d.wrongKind

def bool : Decoder Bool
  | .bool b => .ok b
  | d => .error d.wrongKind

def natBelow (bound : Nat) : Decoder Nat
  | .int n => if 0 ≤ n ∧ n < bound then .ok n.toNat else .error .mismatch
  | d => .error d.wrongKind

/-- A whole number in the range of 64-bit signed words. -/
def int64 : Decoder Int
  | .int n => if -0x8000000000000000 ≤ n ∧ n < 0x8000000000000000 then .ok n else .error .mismatch
  | d => .error d.wrongKind

def json : Decoder Json := Json.ofDoc

def items {α : Type} (item : Decoder α) : List Doc → Except Fault (List α)
  | [] => .ok []
  | d :: ds => return (← item d) :: (← items item ds)

def listOf {α : Type} (item : Decoder α) : Decoder (List α)
  | .list ds => items item ds
  | .deep _ => .error .malformed
  | d => .error d.wrongKind

/-- Null for none. -/
def optional {α : Type} (value : Decoder α) : Decoder (Option α)
  | .null => .ok none
  | d => some <$> value d

def tag {α : Type} (ofTag : String → Option α) (word : String) : Except Fault α :=
  match ofTag word with
  | some a => .ok a
  | none => .error .mismatch

/-- A tag: a text, or an object whose one field is named by the tag and null. Nothing else starts a
tag, so that any other value makes the text malformed. -/
def tagged {α : Type} (ofTag : String → Option α) : Decoder α
  | .text s => tag ofTag s
  | .object ((some key, d) :: rest) => do
    let a ← tag ofTag key
    match d, rest with
    | .null, [] => return a
    | .null, _ :: _ => throw .malformed
    | d, _ => throw d.wrongKind
  | _ => .error .malformed

/-- Values that are told apart by their kind are read completely before the kind is looked at. -/
def whole {α : Type} (value : Json → Option α) : Decoder α := fun d => do
  match value (← Json.ofDoc d) with
  | some a => return a
  | none => throw .mismatch

/-! ## Records -/

/-- A field of a record under construction: its name, whether it may be absent, and how its value is
put into the record. -/
structure Field (σ : Type) where
  name : String
  required : Bool
  put : Doc → σ → Except Fault σ

namespace Field

variable {σ α : Type}

/-- A field that has to be there. -/
def need (name : String) (value : Decoder α) (set : α → σ → σ) : Field σ :=
  ⟨name, true, fun d s => return set (← value d) s⟩

/-- A field that may be absent. -/
def may (name : String) (value : Decoder α) (set : α → σ → σ) : Field σ :=
  ⟨name, false, fun d s => return set (← value d) s⟩

end Field

/-- The fields of an object in the order of the text, given the names seen before. -/
def readFields {σ : Type} (known : List (Field σ)) :
    List String → List (Option String × Doc) → σ → Except Fault (List String × σ)
  | seen, [], s => .ok (seen, s)
  | _, (none, _) :: _, _ => .error .malformed
  | seen, (some key, d) :: rest, s =>
    match known.find? (·.name == key) with
    | none => do
      d.skip
      readFields known seen rest s
    | some field =>
      if seen.contains key then .error .mismatch
      else do
        let s ← field.put d s
        readFields known (key :: seen) rest s

/-- The fields of a record written as a list, in the order of declaration. -/
def readRow {σ : Type} : List (Field σ) → List Doc → σ → Except Fault σ
  | [], [], s => .ok s
  | [], _ :: _, _ => .error .malformed
  | field :: fields, [], s => if field.required then .error .mismatch else readRow fields [] s
  | field :: fields, d :: ds, s => do
    let s ← field.put d s
    readRow fields ds s

/-- A record: the fields, put into a blank record. -/
def record {σ : Type} (known : List (Field σ)) (blank : σ) : Decoder σ
  | .object fields => do
    let (seen, s) ← readFields known [] fields blank
    if known.all fun field => !field.required || seen.contains field.name then return s
    else throw .mismatch
  | .list ds => readRow known ds blank
  | .deep _ => .error .malformed
  | d => .error d.wrongKind

end Decoder

end ChartFeed
