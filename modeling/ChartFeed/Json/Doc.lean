import ChartFeed.Json.Basic

/-!
# Documents as they were written

A `Doc` is a JSON text taken apart without judging it: fields keep their order and repetitions, and
where the text stops making sense the tree ends in a hole. Decoders walk a document in the order of
the text, so that the first fault they meet is the one that they report.

* `Doc` : the tree, `Doc.ofJson` the document of a value.
* `Fault` : the text is malformed, or it is of the wrong shape.
* `Doc.complete` : the text of the document is complete, whatever it says; `Doc.height` its nesting.
* `Json.ofDoc` : the value of a document.
-/

namespace ChartFeed

/-- What a JSON text says, holes included. -/
inductive Doc where
  | null
  | bool (b : Bool)
  | int (n : Int)
  | float (x : Float)
  | text (s : String)
  | list (items : List Doc)
  /-- The fields in the order of the text; a key that stands for no text is `none`. -/
  | object (fields : List (Option String × Doc))
  /-- A well-formed number or text without a value: beyond the doubles, or half a surrogate pair. -/
  | unreadable
  /-- A list or object nested too deeply to be read, and whether its text is complete. -/
  | deep (complete : Bool)
  /-- The place where the text breaks off or goes wrong. -/
  | broken
  deriving Inhabited, Repr

/-- Why a document is refused. -/
inductive Fault where
  /-- The text is not JSON, or not readable as such. -/
  | malformed
  /-- The text is JSON of another shape than asked for. -/
  | mismatch
  deriving DecidableEq, Repr

namespace Doc

mutual

/-- The text of the document has no hole. -/
def complete : Doc → Bool
  | .list items => completeItems items
  | .object fields => completeFields fields
  | .deep whole => whole
  | .broken => false
  | _ => true
termination_by structural d => d

def completeItems : List Doc → Bool
  | [] => true
  | d :: ds => d.complete && completeItems ds
termination_by structural ds => ds

def completeFields : List (Option String × Doc) → Bool
  | [] => true
  | (_, d) :: fs => d.complete && completeFields fs
termination_by structural fs => fs

end

mutual

/-- How deeply lists and objects are nested in the document. -/
def height : Doc → Nat
  | .list items => heightItems items + 1
  | .object fields => heightFields fields + 1
  | _ => 0
termination_by structural d => d

def heightItems : List Doc → Nat
  | [] => 0
  | d :: ds => max d.height (heightItems ds)
termination_by structural ds => ds

def heightFields : List (Option String × Doc) → Nat
  | [] => 0
  | (_, d) :: fs => max d.height (heightFields fs)
termination_by structural fs => fs

end

/-- Passes over a document that nobody asked for: only its text has to be complete. -/
def skip (d : Doc) : Except Fault Unit := if d.complete then .ok () else .error .malformed

/-- The fault of a document that is not of the kind asked for. The kind shows at the first character
of a list or object, before what stands inside. -/
def wrongKind : Doc → Fault
  | .unreadable | .broken => .malformed
  | _ => .mismatch

mutual

def ofJson : Json → Doc
  | .null => .null
  | .bool b => .bool b
  | .int n => .int n
  | .float x => .float x
  | .text s => .text s
  | .list items => .list (ofItems items)
  | .object fields => .object (ofFields fields)
termination_by structural j => j

def ofItems : List Json → List Doc
  | [] => []
  | j :: js => ofJson j :: ofItems js
termination_by structural js => js

def ofFields : List (String × Json) → List (Option String × Doc)
  | [] => []
  | (key, j) :: fs => (some key, ofJson j) :: ofFields fs
termination_by structural fs => fs

end

end Doc

namespace Json

mutual

/-- The value of a document: object keys ascend, the last value of a repeated key wins. -/
def ofDoc : Doc → Except Fault Json
  | .null => .ok .null
  | .bool b => .ok (.bool b)
  | .int n => .ok (.int n)
  | .float x => .ok (.float x)
  | .text s => .ok (.text s)
  | .list items => return .list (← ofDocItems items)
  | .object fields => return ofFields (← ofDocFields fields)
  | .unreadable | .deep _ | .broken => .error .malformed
termination_by structural d => d

def ofDocItems : List Doc → Except Fault (List Json)
  | [] => .ok []
  | d :: ds => return (← ofDoc d) :: (← ofDocItems ds)
termination_by structural ds => ds

def ofDocFields : List (Option String × Doc) → Except Fault (List (String × Json))
  | [] => .ok []
  | (none, _) :: _ => .error .malformed
  | (some key, d) :: fs => return (key, ← ofDoc d) :: (← ofDocFields fs)
termination_by structural fs => fs

end

end Json

end ChartFeed
