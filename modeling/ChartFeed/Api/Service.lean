import ChartFeed.Api.Command
import ChartFeed.Snapshot.Vault

/-!
# The service

* `Api.Service` : a vault and the key that guards it.
* `Service.run` : carries out a command.
* `Service.handle` : answers a request. It is decoded before the key is asked for, and nothing is
  carried out without the key.
-/

namespace ChartFeed.Api

/-- A vault and the key that guards it, if there is one. -/
structure Service (σ τ : Type) where
  vault : Vault σ τ
  apiKey : Option String

/-- The answer to a request: a status, and a JSON value or a text that is not meant to be read by
programs. The answer to `HEAD` is without its value. -/
structure Response where
  status : Nat
  isJson : Bool
  body : Option Json
  deriving Repr

namespace Response

def json (status : Nat) (value : Json) : Response := ⟨status, true, some value⟩

def refused (r : Refusal) : Response := ⟨r.status, false, none⟩

def failed (f : Failure) : Response := json f.status (.object [("error", .text f.message)])

def head (r : Response) : Response := { r with body := none }

end Response

namespace Service

variable {σ τ : Type}

/-- The size of a page that is asked for, within what the table service gives. -/
def pageSize (s : Service σ τ) (asked : Option Nat) : Nat :=
  Page.clampSize (asked.getD s.vault.pageSize)

/-- The compiled filter of a query. The columns are asked for only if there are filters and they are
not given. -/
def report (s : Service σ τ) (r : QueryRequest) : Session σ Filter.Report :=
  if r.filters.isEmpty then return ⟨none, []⟩
  else
    match r.properties with
    | some properties => return Filter.report r.filters properties
    | none => do
      let schema : Schema ← Session.ask s.vault.source (.schema r.token r.table)
      return Filter.report r.filters schema.properties

/-- One page of a table, with the conditions that were left out of its filter. -/
def query (s : Service σ τ) (r : QueryRequest) : Session σ Json := do
  let report ← s.report r
  let page : Page ← Session.ask s.vault.source
    (.page r.token r.table report.query (s.pageSize r.pageSize) r.cursor)
  return .object (page.fields ++ [("warnings", .list (report.warnings.map Filter.Warning.toJson))])

def aggregate (r : AggregateRequest) : Except Failure Json :=
  if r.x.isEmpty then .error (.invalidRequest "xField is required")
  else .ok (.object [("data", .list ((Chart.aggregate r.axes r.rows).map Point.toJson))])

/-- The compiled filter of a request, null when nothing is left of it. -/
def compile (r : CompileRequest) : Json :=
  let report := Filter.report r.filters r.properties
  .object [("filter", (report.query.map Filter.Query.toJson).getD .null),
    ("warnings", .list (report.warnings.map Filter.Warning.toJson))]

def run (s : Service σ τ) (fresh : Fresh) : Command → Act σ τ Json
  | .health => return .object [("status", .text "ok")]
  | .compile r => return compile r
  | .aggregate r => Act.check (aggregate r)
  | .tables r => do
    let summaries : List Summary ← Act.consult (Session.ask s.vault.source (.tables r.token))
    return .list (summaries.map Summary.toJson)
  | .schema r => do
    let schema : Schema ← Act.consult (Session.ask s.vault.source (.schema r.token r.table))
    return schema.toJson
  | .query r => Act.consult (s.query r)
  | .save r => Receipt.toJson <$> s.vault.save fresh r
  | .execute id => Execution.toJson <$> s.vault.execute fresh id
  | .config id => s.vault.config id

/-- The request may be carried out: there is no key, or the request shows it. -/
def admits (s : Service σ τ) (r : Request) : Bool :=
  match s.apiKey with
  | none => true
  | some key => r.header? "x-api-key" == some key

def perform (s : Service σ τ) (fresh : Fresh) (r : Request) (c : Command) : Act σ τ Json :=
  if c.isGuarded && !s.admits r then Act.fail .auth else s.run fresh c

/-- The answer to a request and the world after it; none while the source announces page after
page. -/
def answer (s : Service σ τ) (fresh : Fresh) (r : Request) (w : World σ τ) :
    Option Response × World σ τ :=
  match Command.read r with
  | .error refusal => (some (.refused refusal), w)
  | .ok c =>
    match s.perform fresh r c w with
    | (.ok value, w) => (some (.json 200 value), w)
    | (.error (.failed f), w) => (some (.failed f), w)
    | (.error .unfinished, w) => (none, w)

/-- The answer as it is sent: `HEAD` gets it without its value. -/
def handle (s : Service σ τ) (fresh : Fresh) (r : Request) (w : World σ τ) :
    Option Response × World σ τ :=
  let (response, w) := s.answer fresh r w
  (if r.method == "HEAD" then response.map Response.head else response, w)

end Service

end ChartFeed.Api
