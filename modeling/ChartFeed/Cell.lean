import ChartFeed.Property.Kind
import ChartFeed.Scalar

/-!
# Cells

A cell of the table is a tagged value: `type` names the key under which its payload stands.

* `Cell.normalize` : the scalar that a cell is reduced to. It is total: absent payloads reduce to
  the empty text or to zero, unknown tags to the first usable field or to the tag in brackets.
* `Cell.ofRow` : the scalar of the cell of a property in a row.
-/

namespace ChartFeed.Cell

/-! ## Parts of a payload -/

/-- A text, number or truth value as a label; all else is the empty label. -/
def label : Json → String
  | .text s => s
  | .int n => axisText (Float.ofInt n)
  | .float x => axisText x
  | .bool true => "true"
  | .bool false => "false"
  | _ => ""

def fieldLabel (key : String) (j : Json) : String := ((j.get? key).map label).getD ""

/-- The labels that are not empty, with a comma and a blank between them. -/
def joinLabels (labels : List String) : String :=
  String.intercalate ", " (labels.filter (!·.isEmpty))

def listLabel (item : Json → String) (j : Json) : String :=
  joinLabels ((j.items?.getD []).map item)

/-- The plain text of the first run of a rich text. -/
def firstRun (j : Json) : String :=
  match j.items? with
  | some (run :: _) => fieldLabel "plain_text" run
  | _ => ""

/-- A user is shown by name, or by id when there is no name. -/
def userLabel (j : Json) : String :=
  let name := fieldLabel "name" j
  if name.isEmpty then fieldLabel "id" j else name

/-- A running number, behind its series if it has one. -/
def uniqueId (j : Json) : Scalar :=
  match (j.get? "number").bind Json.number? with
  | none => .empty
  | some n =>
    match (j.get? "prefix").bind Json.text? with
    | some series => if series.isEmpty then .number n else .text (series ++ "-" ++ axisText n)
    | none => .number n

/-- A field of a cell of unknown type that can stand for the cell: a text that is not empty, a
number or a truth. -/
def usable : Json → Option Scalar
  | .text s => if s.isEmpty then none else some (.text s)
  | .int n => some (.number (Float.ofInt n))
  | .float x => some (.number x)
  | .bool true => some (.bool true)
  | _ => none

/-- A cell of unknown type: its first usable field, else its tag in brackets. -/
def fallback (tag : Option String) (j : Json) : Scalar :=
  match ["value", "name", "text", "plain_text"].findSome? fun key => (j.get? key).bind usable with
  | some s => s
  | none =>
    match tag with
    | some tag => .text ("[" ++ tag ++ "]")
    | none => .empty

def numberField (key : String) (j : Json) : Float := ((j.get? key).bind Json.number?).getD 0.0

def boolField (key : String) (j : Json) : Bool := ((j.get? key).bind Json.bool?).getD false

def tag? (j : Json) : Option String := (j.get? "type").bind Json.text?

/-- A payload that holds no further cells. -/
def ofPayload (t : PropertyType) (cell : Json) : Scalar :=
  let payload := cell.getD t.tag
  match t with
  | .title | .richText => .text (firstRun payload)
  | .number => .number (payload.number?.getD 0.0)
  | .select | .status => .text (fieldLabel "name" payload)
  | .multiSelect | .files => .text (listLabel (fieldLabel "name") payload)
  | .date => .text (fieldLabel "start" payload)
  | .checkbox => .bool (payload.bool?.getD false)
  | .url | .email | .phoneNumber | .createdTime | .lastEditedTime => .text (label payload)
  | .relation => .text (listLabel (fieldLabel "id") payload)
  | .people => .text (listLabel userLabel payload)
  | .createdBy | .lastEditedBy => .text (userLabel payload)
  | .uniqueId => uniqueId payload
  | .formula | .rollup => .empty

/-! ## Cells within cells -/

theorem sizeOf_lt_of_lookup {key : String} {fields : List (String × Json)} {v : Json}
    (h : fields.lookup key = some v) : sizeOf v < sizeOf fields := by
  induction fields with
  | nil => simp at h
  | cons field rest ih =>
    obtain ⟨k, w⟩ := field
    rw [List.lookup_cons] at h
    split at h
    · cases h
      simp only [List.cons.sizeOf_spec, Prod.mk.sizeOf_spec]
      omega
    · have := ih h
      simp only [List.cons.sizeOf_spec]
      omega

theorem sizeOf_lt_of_get? {key : String} {j v : Json} (h : j.get? key = some v) :
    sizeOf v < sizeOf j := by
  cases j with
  | object fields =>
    have := sizeOf_lt_of_lookup h
    simp only [Json.object.sizeOf_spec]
    omega
  | _ => simp [Json.get?] at h

theorem sizeOf_lt_of_mem_items {j v : Json} {items : List Json} (h : j.items? = some items)
    (hv : v ∈ items) : sizeOf v < sizeOf j := by
  cases j with
  | list items' =>
    obtain rfl : items' = items := by simpa [Json.items?] using h
    have := List.sizeOf_lt_of_mem hv
    simp only [Json.list.sizeOf_spec]
    omega
  | _ => simp [Json.items?] at h

mutual

/-- The scalar that a cell is reduced to. -/
def normalize (j : Json) : Scalar :=
  match j.fields? with
  | none => .empty
  | some _ =>
    match tag? j with
    | none => fallback none j
    | some tag =>
      match PropertyType.ofTag? tag with
      | none => fallback (some tag) j
      | some .formula =>
        match _found : j.get? "formula" with
        | none => .empty
        | some payload => ofFormula payload
      | some .rollup =>
        match _found : j.get? "rollup" with
        | none => .empty
        | some payload => ofRollup payload
      | some t => ofPayload t j
termination_by (sizeOf j, 0)
decreasing_by
  all_goals exact Prod.Lex.left _ _ (sizeOf_lt_of_get? _found)

/-- The result of a formula: a text, number, truth value or date under its own tag, else a cell. -/
def ofFormula (j : Json) : Scalar :=
  match tag? j with
  | some "string" => .text (fieldLabel "string" j)
  | some "number" => .number (numberField "number" j)
  | some "boolean" => .bool (boolField "boolean" j)
  | some "date" => .text (fieldLabel "start" (j.getD "date"))
  | _ => normalize j
termination_by (sizeOf j, 1)
decreasing_by exact Prod.Lex.right _ (by omega)

/-- The result of a rollup: a number, a date, or cells, whose labels are joined; else a cell. -/
def ofRollup (j : Json) : Scalar :=
  match tag? j with
  | some "number" => .number (numberField "number" j)
  | some "date" => .text (fieldLabel "start" (j.getD "date"))
  | some "array" =>
    match _found : j.get? "array" with
    | none => .empty
    | some array =>
      match _listed : array.items? with
      | none => .empty
      | some items =>
        .text (joinLabels (items.attach.map fun ⟨item, _⟩ => (normalize item).display))
  | some "incomplete" | some "unsupported" => .empty
  | _ => normalize j
termination_by (sizeOf j, 1)
decreasing_by
  · rename_i hitem
    have := sizeOf_lt_of_get? _found
    have := sizeOf_lt_of_mem_items _listed hitem
    exact Prod.Lex.left _ _ (by omega)
  · exact Prod.Lex.right _ (by omega)

end

/-- The scalar of the cell of a property in a row; a row without the cell has the empty text. -/
def ofRow (row : Json) (name : String) : Scalar :=
  match (row.get? "properties").bind (Json.get? name) with
  | some cell => normalize cell
  | none => .empty

end ChartFeed.Cell
