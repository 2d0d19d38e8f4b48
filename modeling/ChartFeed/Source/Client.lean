import ChartFeed.Json.Reader
import ChartFeed.Source.Database
import ChartFeed.Source.Session

/-!
# The table service over HTTP

* `Client.Request`, `Client.Reply` : one exchange with the service.
* `Link` : whatever carries requests there and replies back.
* `Call.request` : how a call is put, `Call.read` how its answer is read.
* `Client.Reply.content` : what a reply says, or the failure that it stands for.
* `Client.source` : the service as a source of tables.
-/

namespace ChartFeed

open ChartFeed.Filter (Query)

/-! ## Exchanges -/

/-- A request to the table service; with a body it is posted. -/
structure Client.Request where
  url : String
  token : String
  version : String
  body : Option Json
  deriving Repr

namespace Client.Request

/-- A request without a body only asks. -/
def method (r : Request) : String := if r.body.isSome then "POST" else "GET"

/-- The headers of a request that depend on what is asked. -/
def headers (r : Request) : List (String × String) :=
  [("authorization", "Bearer " ++ r.token), ("notion-version", r.version)] ++
    (if r.body.isSome then [("content-type", "application/json")] else [])

end Client.Request

/-- What comes of a request. -/
inductive Client.Reply where
  /-- A status and the bytes of a body. -/
  | answered (status : Nat) (body : List UInt8)
  /-- The request cannot be written, or nobody answers it. -/
  | unreachable
  deriving DecidableEq, Repr

/-- Carries requests to the service and replies back. -/
structure Link (σ : Type) where
  exchange : Client.Request → σ → Client.Reply × σ

/-! ## Calls -/

namespace Call

def path : Call → String
  | .page _ table _ _ _ => "/databases/" ++ table ++ "/query"
  | .schema _ table => "/databases/" ++ table
  | .tables _ => "/search"

/-- What is posted: a page is asked for with what is known of query and cursor, and a search is
limited to databases. -/
def body? : Call → Option Json
  | .page _ _ query size cursor =>
    some (.object (Json.field? "filter" (query.map Query.toJson) ++ [("page_size", .ofNat size)] ++
      Json.field? "start_cursor" (cursor.map .text)))
  | .schema .. => none
  | .tables _ =>
    some (.object [("filter", .object [("property", .text "object"), ("value", .text "database")])])

def request (base version : String) (c : Call) : Client.Request where
  url := base ++ c.path
  token := c.token
  version := version
  body := c.body?

/-- The wording of a refusal that gives no reason. -/
def refusal : Call → String
  | .page .. => "Failed to query database"
  | .schema .. => "Failed to fetch database properties"
  | .tables _ => "Failed to fetch databases"

/-- The status under which the service itself is at fault. -/
def badGateway : Nat := 502

/-- The answer to a call. Only a page can fail to be one: any value is a database or a listing, if
need be an empty one. The words for it stand in for those of whatever decodes pages, which tell what
is wrong with this one and are not kept. -/
def read : (c : Call) → Json → Except Failure c.Answer
  | .page .., j =>
    match Page.decoder (.ofJson j) with
    | .ok p => .ok p
    | .error _ => .error (.remote badGateway "unreadable page")
  | .schema .., j => .ok (Schema.ofDatabase j)
  | .tables _, j =>
    .ok ((((j.get? "results").bind Json.items?).getD []).map Summary.ofDatabase)

end Call

/-! ## Replies -/

namespace Client.Reply

/-- The value that the bytes of a body write; anything but JSON counts as null. -/
def value (body : List UInt8) : Json :=
  ((String.fromUTF8? ⟨body.toArray⟩).bind Json.parse?).getD .null

def isSuccess (status : Nat) : Bool := 200 ≤ status && status < 300

/-- Why the service refuses: two statuses have a wording of their own, the others give a reason. -/
def refused (status : Nat) (body : Json) (refusal : String) : Failure :=
  if status = 401 then .remote status "Invalid Notion token"
  else if status = 404 then .remote status "Database not found or no access permission"
  else .remote status (((body.get? "message").bind Json.text?).getD refusal)

/-- What a reply says, or the failure that it stands for. The words for a service that cannot be
reached stand in for those of whatever carries requests, which tell why and are not kept. -/
def content (refusal : String) : Reply → Except Failure Json
  | .unreachable => .error (.remote Call.badGateway "table service unreachable")
  | .answered status body =>
    if isSuccess status then .ok (value body) else .error (refused status (value body) refusal)

end Client.Reply

/-! ## The client -/

/-- The table service behind a link: where it is, and in which version it is spoken to. -/
structure Client (σ : Type) where
  base : String
  version : String
  link : Link σ

namespace Client

variable {σ : Type}

/-- The answer to a call. A text that cannot be a token is refused before anything is sent. -/
def answer (client : Client σ) (c : Call) (s : σ) : Except Failure c.Answer × σ :=
  match checkToken c.token with
  | .error f => (.error f, s)
  | .ok () =>
    let (reply, s) := client.link.exchange (c.request client.base client.version) s
    ((reply.content c.refusal).bind c.read, s)

def source (client : Client σ) : Source σ := ⟨client.answer⟩

end Client

end ChartFeed
