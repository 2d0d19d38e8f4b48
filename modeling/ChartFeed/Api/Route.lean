import ChartFeed.Api.Target
import ChartFeed.Text.Blank

/-!
# Routes

* `Api.Route` : what can be asked for by path; an id in a path is kept as it is written there.
* `Route.ofTarget?` : the route of a request target.
* `Route.allows` : the method that a route is asked with.
-/

namespace ChartFeed.Api

/-- What can be asked for by path. -/
inductive Route where
  | health
  | compile
  | aggregate
  | tables
  | schema
  | query
  | save
  /-- Running a snapshot; the id stands in the path, percent-encoded. -/
  | execute (encodedId : String)
  /-- How a snapshot is set up; the id stands in the path, percent-encoded. -/
  | config (encodedId : String)
  deriving DecidableEq, Repr

namespace Route

/-- The segments of a path, in front of whose first slash nothing stands. -/
def segments (path : String) : List String :=
  (Text.splitOnChar '/' path.toList).map String.ofList

/-- The route of a path. An id at the end of a path is not empty. -/
def ofPath? (path : String) : Option Route :=
  match segments path with
  | ["", "healthz"] => some .health
  | ["", "api", "filters", "compile"] => some .compile
  | ["", "api", "aggregate"] => some .aggregate
  | ["", "notion", "databases"] => some .tables
  | ["", "notion", "database-properties"] => some .schema
  | ["", "notion", "query"] => some .query
  | ["", "snapshots", "query"] => some .save
  | ["", "snapshots", "query", id] => if id.isEmpty then none else some (.execute id)
  | ["", "snapshots", "query", id, "config"] => some (.config id)
  | _ => none

/-- The route of a target; only paths have one. -/
def ofTarget? : Target → Option Route
  | .path path => ofPath? path
  | .service | .host _ => none

def takesBody : Route → Bool
  | .health | .execute _ | .config _ => false
  | _ => true

/-- The route is asked with this method: `POST` where it takes a body, else `GET` or `HEAD`. -/
def allows (r : Route) (method : String) : Bool :=
  if r.takesBody then method == "POST" else method == "GET" || method == "HEAD"

end Route

end ChartFeed.Api
