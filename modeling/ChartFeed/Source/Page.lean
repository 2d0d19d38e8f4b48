import ChartFeed.Property.Descriptor

/-!
# What the table service answers

* `Page` : some rows of a table and where the next ones are; `Page.clampSize` the sizes there are.
* `Schema` : a table with its columns.
* `Summary` : a table in a listing.
-/

namespace ChartFeed

/-- Some rows of a table; the cursor names the page after it. -/
structure Page where
  rows : List Json
  hasMore : Bool
  nextCursor : Option String
  deriving Repr, Inhabited

namespace Page

/-- The largest page that the table service gives. -/
def maxSize : Nat := 100

def clampSize (n : Nat) : Nat := min (max n 1) maxSize

/-- The page that follows, if it is announced and named. -/
def next? (p : Page) : Option String := if p.hasMore then p.nextCursor else none

def fields (p : Page) : List (String × Json) :=
  [("results", .list p.rows), ("has_more", .bool p.hasMore),
    ("next_cursor", .textOrNull p.nextCursor)]

def toJson (p : Page) : Json := .object p.fields

/-- Reads a page; only its rows have to be there. -/
def decoder : Decoder Page :=
  .record
    [.need "results" (.listOf .json) fun v p => { p with rows := v },
      .may "has_more" .bool fun v p => { p with hasMore := v },
      .may "next_cursor" (.optional .text) fun v p => { p with nextCursor := v }]
    ⟨[], false, none⟩

end Page

/-- A table with its columns. -/
structure Schema where
  id : String
  title : String
  properties : List Property
  deriving DecidableEq, Repr, Inhabited

def Schema.toJson (s : Schema) : Json :=
  .object [("id", .text s.id), ("title", .text s.title),
    ("properties", .list (s.properties.map Property.toJson))]

/-- A table in a listing: the names of its columns and when it was edited last. -/
structure Summary where
  id : String
  title : String
  properties : List String
  lastEdited : Option String
  deriving DecidableEq, Repr, Inhabited

def Summary.toJson (s : Summary) : Json :=
  .object [("id", .text s.id), ("title", .text s.title),
    ("properties", .list (s.properties.map .text)), ("last_edited_time", .textOrNull s.lastEdited)]

end ChartFeed
