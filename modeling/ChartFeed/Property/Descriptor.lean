import ChartFeed.Json.Decoder
import ChartFeed.Property.Kind

/-!
# Columns

* `SelectOption` : an option of a select column.
* `Property` : a column of the table; `Property.find?` looks one up by its name.
-/

namespace ChartFeed

/-- An option of a select column. -/
structure SelectOption where
  name : String
  id : Option String
  color : Option String
  deriving DecidableEq, Repr

namespace SelectOption

/-- An option shows its id and color even when it has none. -/
def toJson (o : SelectOption) : Json :=
  .object [("name", .text o.name), ("id", .textOrNull o.id), ("color", .textOrNull o.color)]

def decoder : Decoder SelectOption :=
  .record
    [.need "name" .text fun v o => { o with name := v },
      .may "id" (.optional .text) fun v o => { o with id := v },
      .may "color" (.optional .text) fun v o => { o with color := v }]
    ⟨"", none, none⟩

end SelectOption

/-- A column of the table. -/
structure Property where
  name : String
  type : PropertyType
  id : Option String
  options : Option (List SelectOption)
  deriving DecidableEq, Repr

namespace Property

/-- The first column of a name. -/
def find? (properties : List Property) (name : String) : Option Property :=
  List.find? (fun p => p.name == name) properties

/-- A column leaves out the id and the options that it has not. -/
def toJson (p : Property) : Json :=
  .object ([("name", .text p.name), ("type", .text p.type.tag)] ++
    Json.field? "id" (p.id.map .text) ++
    Json.field? "options" (p.options.map fun os => .list (os.map SelectOption.toJson)))

def decoder : Decoder Property :=
  .record
    [.need "name" .text fun v p => { p with name := v },
      .need "type" (.tagged PropertyType.ofTag?) fun v p => { p with type := v },
      .may "id" (.optional .text) fun v p => { p with id := v },
      .may "options" (.optional (.listOf SelectOption.decoder)) fun v p => { p with options := v }]
    ⟨"", .title, none, none⟩

end Property

end ChartFeed
