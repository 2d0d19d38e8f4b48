/-!
# Property types

* `PropertyType` : the types that a column of the table can have.
* `PropertyType.tag`, `PropertyType.ofTag?` : their names on the wire.
-/

namespace ChartFeed

/-- The type of a column. -/
inductive PropertyType where
  | title
  | richText
  | number
  | select
  | multiSelect
  | status
  | date
  | checkbox
  | url
  | email
  | phoneNumber
  | formula
  | rollup
  | relation
  | people
  | files
  | createdTime
  | lastEditedTime
  | createdBy
  | lastEditedBy
  | uniqueId
  deriving DecidableEq, Repr

namespace PropertyType

def all : List PropertyType :=
  [.title, .richText, .number, .select, .multiSelect, .status, .date, .checkbox, .url, .email,
    .phoneNumber, .formula, .rollup, .relation, .people, .files, .createdTime, .lastEditedTime,
    .createdBy, .lastEditedBy, .uniqueId]

/-- The name of a type, which is also the key of a cell's payload. -/
def tag : PropertyType → String
  | .title => "title"
  | .richText => "rich_text"
  | .number => "number"
  | .select => "select"
  | .multiSelect => "multi_select"
  | .status => "status"
  | .date => "date"
  | .checkbox => "checkbox"
  | .url => "url"
  | .email => "email"
  | .phoneNumber => "phone_number"
  | .formula => "formula"
  | .rollup => "rollup"
  | .relation => "relation"
  | .people => "people"
  | .files => "files"
  | .createdTime => "created_time"
  | .lastEditedTime => "last_edited_time"
  | .createdBy => "created_by"
  | .lastEditedBy => "last_edited_by"
  | .uniqueId => "unique_id"

def ofTag? (s : String) : Option PropertyType := all.find? (·.tag == s)

theorem mem_all (t : PropertyType) : t ∈ all := by cases t <;> decide

theorem ofTag?_tag (t : PropertyType) : ofTag? t.tag = some t := by cases t <;> decide

end PropertyType

end ChartFeed
