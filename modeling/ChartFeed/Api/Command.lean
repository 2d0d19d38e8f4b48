import ChartFeed.Api.MediaType
import ChartFeed.Api.Route
import ChartFeed.Json.Reader
import ChartFeed.Snapshot.Record
import ChartFeed.Text.Percent

/-!
# Requests and what they ask for

* `Api.Request` : a request as it comes in, `Request.ofParts?` what can be written as one.
* `Api.Command` : what it asks for, decoded.
* `Api.Refusal` : why a request is not decoded; its status.
* `Command.read` : path and method first, then the media type, then the body.
-/

namespace ChartFeed.Api

open ChartFeed.Filter (Group)

/-- A request as it comes in. Names of headers are in lower case. -/
structure Request where
  method : String
  target : Target
  headers : List (String × String)
  body : String
  deriving DecidableEq, Repr

namespace Request

def isHeaderChar (c : Char) : Bool := (' ' ≤ c && c != '\x7f') || c == '\t'

def isMethod (method : String) : Bool :=
  !method.isEmpty && method.toList.all MediaType.isTokenChar

/-- The request of a method, a target, headers and a body, if they can be written as one. -/
def ofParts? (method target : String) (headers : List (String × String)) (body : String) :
    Option Request := do
  let target ← Target.ofText? target
  if isMethod method && headers.all fun (_, value) => value.toList.all isHeaderChar then
    some { method, target, headers, body }
  else none

def isReadable (c : Char) : Bool := (' ' ≤ c && c ≤ '~') || c == '\t'

def header? (r : Request) (name : String) : Option String :=
  (r.headers.lookup name).filter fun value => value.toList.all isReadable

def isJson (r : Request) : Bool :=
  ((r.header? "content-type").bind MediaType.parse?).any MediaType.isJson

end Request

/-- Why a request is not decoded. -/
inductive Refusal where
  | unknownPath
  | wrongMethod
  | mediaType
  | tooLarge
  | body (fault : Fault)
  /-- The id in the path is not a text. -/
  | encodedId
  deriving DecidableEq, Repr

def Refusal.status : Refusal → Nat
  | .unknownPath => 404
  | .wrongMethod => 405
  | .mediaType => 415
  | .tooLarge => 413
  | .body .malformed => 400
  | .body .mismatch => 422
  | .encodedId => 400

/-! ## Bodies -/

structure CompileRequest where
  filters : List Group
  properties : List Property
  deriving DecidableEq, Repr

def CompileRequest.decoder : Decoder CompileRequest :=
  .record
    [.may "filters" (.listOf Group.decoder) fun v r => { r with filters := v },
      .may "properties" (.listOf Property.decoder) fun v r => { r with properties := v }]
    ⟨[], []⟩

structure AggregateRequest where
  rows : List Json
  x : String
  y : String
  label : Option String
  function : String
  deriving Repr

def AggregateRequest.decoder : Decoder AggregateRequest :=
  .record
    [.may "rows" (.listOf .json) fun v r => { r with rows := v },
      .need "xField" .text fun v r => { r with x := v },
      .need "yField" .text fun v r => { r with y := v },
      .may "labelField" (.optional .text) fun v r => { r with label := v },
      .may "aggregateFunction" .text fun v r => { r with function := v }]
    ⟨[], "", "", none, AggregateFunction.sum.name⟩

def AggregateRequest.axes (r : AggregateRequest) : Chart.Axes :=
  ⟨r.x, r.y, r.label, .parse r.function⟩

structure TokenRequest where
  token : String
  deriving DecidableEq, Repr

def TokenRequest.decoder : Decoder TokenRequest :=
  .record [.need "token" .text fun v r => { r with token := v }] ⟨""⟩

/-- A table and the token that opens it. -/
structure TableRequest where
  token : String
  table : String
  deriving DecidableEq, Repr

def TableRequest.decoder : Decoder TableRequest :=
  .record
    [.need "token" .text fun v r => { r with token := v },
      .need "databaseId" .text fun v r => { r with table := v }]
    ⟨"", ""⟩

/-- One page of a table to be asked for; columns that are given need not be asked for. -/
structure QueryRequest where
  token : String
  table : String
  filters : List Group
  properties : Option (List Property)
  pageSize : Option Nat
  cursor : Option String
  deriving DecidableEq, Repr

def QueryRequest.decoder : Decoder QueryRequest :=
  .record
    [.need "token" .text fun v r => { r with token := v },
      .need "databaseId" .text fun v r => { r with table := v },
      .may "filters" (.listOf Group.decoder) fun v r => { r with filters := v },
      .may "properties" (.optional (.listOf Property.decoder)) fun v r =>
        { r with properties := v },
      .may "pageSize" (.optional (.natBelow (1 <<< 32))) fun v r => { r with pageSize := v },
      .may "startCursor" (.optional .text) fun v r => { r with cursor := v }]
    ⟨"", "", [], none, none, none⟩

/-! ## Commands -/

/-- What a request asks for. -/
inductive Command where
  | health
  | compile (r : CompileRequest)
  | aggregate (r : AggregateRequest)
  | tables (r : TokenRequest)
  | schema (r : TableRequest)
  | query (r : QueryRequest)
  | save (r : SaveRequest)
  | execute (id : String)
  | config (id : String)
  deriving Repr

namespace Command

/-- The largest body in bytes. -/
def maxBody : Nat := 2097152

/-- The value of a JSON body. What follows the value is not looked at. -/
def readBody {α : Type} (decode : Decoder α) (r : Request) : Except Refusal α := do
  if !r.isJson then throw .mediaType
  if maxBody < r.body.utf8ByteSize then throw .tooLarge
  (decode (Doc.read r.body).1).mapError .body

def readId (encodedId : String) : Except Refusal String :=
  match Percent.decode? encodedId with
  | some id => .ok id
  | none => .error .encodedId

def ofRoute (r : Request) : Route → Except Refusal Command
  | .health => .ok .health
  | .compile => .compile <$> readBody CompileRequest.decoder r
  | .aggregate => .aggregate <$> readBody AggregateRequest.decoder r
  | .tables => .tables <$> readBody TokenRequest.decoder r
  | .schema => .schema <$> readBody TableRequest.decoder r
  | .query => .query <$> readBody QueryRequest.decoder r
  | .save => .save <$> readBody SaveRequest.decoder r
  | .execute encodedId => .execute <$> readId encodedId
  | .config encodedId => .config <$> readId encodedId

/-- What a request asks for, or why it cannot be told. -/
def read (r : Request) : Except Refusal Command :=
  match Route.ofTarget? r.target with
  | none => .error .unknownPath
  | some route => if route.allows r.method then ofRoute r route else .error .wrongMethod

/-- The command is carried out only for those who know the key. -/
def isGuarded : Command → Bool
  | .health => false
  | _ => true

end Command

end ChartFeed.Api
