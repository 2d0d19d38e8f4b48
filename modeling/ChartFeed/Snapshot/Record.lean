import ChartFeed.Chart
import ChartFeed.Failure
import ChartFeed.Filter.Group

/-!
# Snapshot records

A snapshot is a saved chart: a query of a table with the credential that opens the table.

* `Snapshot` : the stored record, `Snapshot.toJson`, `Snapshot.decoder` its JSON form.
* `Snapshot.config` : the record as clients see it, without the credential.
* `SaveRequest` : a chart to be saved.
* `Receipt`, `Execution` : the answers to saving and running one.
* `checkId` : the ids that records can be kept under.
-/

namespace ChartFeed

open ChartFeed.Filter (Group)

/-- How a snapshot is kept: as a query that is run whenever it is viewed. -/
inductive SnapshotMode where
  | dynamic
  deriving DecidableEq, Repr

namespace SnapshotMode

def name : SnapshotMode → String
  | .dynamic => "dynamic"

def ofName? (s : String) : Option SnapshotMode := if s = "dynamic" then some .dynamic else none

end SnapshotMode

/-- A stored chart. -/
structure Snapshot where
  schemaVersion : Nat
  id : String
  table : String
  /-- The token of the table service, encrypted. -/
  credential : String
  x : String
  y : String
  label : Option String
  chartType : String
  function : String
  title : String
  mode : SnapshotMode
  isDemo : Bool
  /-- Milliseconds since 1970-01-01. -/
  timestamp : Int
  createdAt : String
  lastUpdated : Option String
  filters : List Group
  deriving DecidableEq, Repr

namespace Snapshot

/-- The newest layout of records, and the one that records are written in. -/
def currentVersion : Nat := 1

/-- What a record asks the table service for and how it draws the answer. -/
def axes (s : Snapshot) : Chart.Axes := ⟨s.x, s.y, s.label, .parse s.function⟩

/-- The fields of a record behind its credential. -/
def fieldsAfterCredential (s : Snapshot) : List (String × Json) :=
  [("xProperty", .text s.x), ("yProperty", .text s.y)] ++
    Json.field? "labelProperty" (s.label.map .text) ++
    [("chartType", .text s.chartType), ("aggregateFunction", .text s.function),
      ("title", .text s.title), ("snapshotMode", .text s.mode.name), ("isDemo", .bool s.isDemo),
      ("timestamp", .int s.timestamp), ("createdAt", .text s.createdAt)] ++
    Json.field? "lastUpdated" (s.lastUpdated.map .text) ++
    [("filters", Group.listToJson s.filters)]

/-- The fields of a record before its credential. -/
def fieldsBeforeCredential (s : Snapshot) : List (String × Json) :=
  [("schemaVersion", .ofNat s.schemaVersion), ("id", .text s.id), ("databaseId", .text s.table)]

def toJson (s : Snapshot) : Json :=
  .object (s.fieldsBeforeCredential ++ [("encryptedToken", .text s.credential)] ++
    s.fieldsAfterCredential)

/-- The record as clients see it: everything but the credential. -/
def config (s : Snapshot) : Json := .object (s.fieldsBeforeCredential ++ s.fieldsAfterCredential)

/-- Reads a record. Records without a version are of the first one. -/
def decoder : Decoder Snapshot :=
  .record
    [.may "schemaVersion" (.natBelow (1 <<< 32)) fun v s => { s with schemaVersion := v },
      .need "id" .text fun v s => { s with id := v },
      .need "databaseId" .text fun v s => { s with table := v },
      .need "encryptedToken" .text fun v s => { s with credential := v },
      .need "xProperty" .text fun v s => { s with x := v },
      .need "yProperty" .text fun v s => { s with y := v },
      .may "labelProperty" (.optional .text) fun v s => { s with label := v },
      .need "chartType" .text fun v s => { s with chartType := v },
      .need "aggregateFunction" .text fun v s => { s with function := v },
      .need "title" .text fun v s => { s with title := v },
      .may "snapshotMode" (.tagged SnapshotMode.ofName?) fun v s => { s with mode := v },
      .may "isDemo" .bool fun v s => { s with isDemo := v },
      .need "timestamp" .int64 fun v s => { s with timestamp := v },
      .need "createdAt" .text fun v s => { s with createdAt := v },
      .may "lastUpdated" (.optional .text) fun v s => { s with lastUpdated := v },
      .may "filters" (.listOf Group.decoder) fun v s => { s with filters := v }]
    ⟨1, "", "", "", "", "", none, "", "", "", .dynamic, false, 0, "", none, []⟩

end Snapshot

/-! ## Requests and answers -/

/-- A chart to be saved, with its token in the clear. -/
structure SaveRequest where
  table : String
  token : String
  x : String
  y : String
  label : Option String
  chartType : String
  function : String
  title : String
  isDemo : Option Bool
  filters : Option (List Group)
  deriving DecidableEq, Repr

namespace SaveRequest

def decoder : Decoder SaveRequest :=
  .record
    [.need "databaseId" .text fun v r => { r with table := v },
      .need "notionToken" .text fun v r => { r with token := v },
      .need "xProperty" .text fun v r => { r with x := v },
      .need "yProperty" .text fun v r => { r with y := v },
      .may "labelProperty" (.optional .text) fun v r => { r with label := v },
      .need "chartType" .text fun v r => { r with chartType := v },
      .need "aggregateFunction" .text fun v r => { r with function := v },
      .need "title" .text fun v r => { r with title := v },
      .may "isDemo" (.optional .bool) fun v r => { r with isDemo := v },
      .may "filters" (.optional (.listOf Group.decoder)) fun v r => { r with filters := v }]
    ⟨"", "", "", "", none, "", "", "", none, none⟩

end SaveRequest

structure Receipt where
  id : String
  timestamp : Int
  mode : SnapshotMode
  deriving DecidableEq, Repr

def Receipt.toJson (r : Receipt) : Json :=
  .object [("id", .text r.id), ("message", .text "Query snapshot saved successfully"),
    ("timestamp", .int r.timestamp), ("snapshotMode", .text r.mode.name)]

/-- The answer to running a snapshot: the chart, and the rows that it was made of. -/
structure Execution where
  id : String
  points : List Point
  chartType : String
  function : String
  title : String
  isDemo : Bool
  timestamp : Int
  createdAt : String
  rows : List Json
  deriving Repr

def Execution.toJson (e : Execution) : Json :=
  .object [("id", .text e.id), ("data", .list (e.points.map Point.toJson)),
    ("chartType", .text e.chartType), ("aggregateFunction", .text e.function),
    ("title", .text e.title), ("isDemo", .bool e.isDemo), ("timestamp", .int e.timestamp),
    ("createdAt", .text e.createdAt), ("rawData", .list e.rows)]

/-! ## Ids -/

def isIdChar (c : Char) : Bool := c.isAlphanum || c == '_' || c == '-'

/-- An id that a record can be kept under. -/
def isId (id : String) : Bool := !id.isEmpty && id.toList.all isIdChar

/-- Refuses an id that no record can be kept under. -/
def checkId (id : String) : Except Failure Unit :=
  if isId id then .ok () else .error (.invalidRequest ("invalid snapshot id '" ++ id ++ "'"))

/-- Refuses a record of a layout that is newer than the current one. -/
def checkVersion (s : Snapshot) : Except Failure Snapshot :=
  if Snapshot.currentVersion < s.schemaVersion then .error .internal else .ok s

end ChartFeed
