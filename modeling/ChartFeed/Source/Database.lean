import ChartFeed.Source.Page

/-!
# Databases as the table service writes them

A database is an object with an `id`, a `title` made of runs of text, and `properties` under their
names, each with a `type` and, under the name of the type, its settings.

* `Schema.ofDatabase` : the columns of a database; columns of an unknown type are skipped.
* `Summary.ofDatabase` : a database in a listing.

Both are total: what is missing or of another kind is left empty.
-/

namespace ChartFeed

namespace Database

def textField (key : String) (j : Json) : String := ((j.get? key).bind Json.text?).getD ""

/-- The title of a database that has none. -/
def untitled : String := "Untitled"

def title (database : Json) : String :=
  match (database.get? "title").bind Json.items? with
  | some (run :: _) =>
    let text := textField "plain_text" run
    if text.isEmpty then untitled else text
  | _ => untitled

def columns (database : Json) : List (String × Json) :=
  ((database.get? "properties").bind Json.fields?).getD []

def hasOptions : PropertyType → Bool
  | .select | .multiSelect | .status => true
  | _ => false

/-- The options of a column, none when they are not there or one of them cannot be read. -/
def options (type : PropertyType) (column : Json) : Option (List SelectOption) :=
  if hasOptions type then do
    let listed ← (← column.get? type.tag).get? "options"
    (Decoder.listOf SelectOption.decoder (.ofJson listed)).toOption
  else none

/-- A column of a known type; without an id of its own it goes by its name. -/
def column? (name : String) (column : Json) : Option Property := do
  let type ← PropertyType.ofTag? (← (← column.get? "type").text?)
  let id := ((column.get? "id").bind Json.text?).getD name
  return { name, type, id := some id, options := options type column }

end Database

/-- The columns of a database in the order of their names. -/
def Schema.ofDatabase (database : Json) : Schema where
  id := Database.textField "id" database
  title := Database.title database
  properties := (Database.columns database).filterMap fun (name, column) =>
    Database.column? name column

/-- A database in a listing, its columns in the order of their names. -/
def Summary.ofDatabase (database : Json) : Summary where
  id := Database.textField "id" database
  title := Database.title database
  properties := (Database.columns database).map (·.1)
  lastEdited := (database.get? "last_edited_time").bind Json.text?

end ChartFeed
