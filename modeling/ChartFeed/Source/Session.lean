import ChartFeed.Failure
import ChartFeed.Filter.Query
import ChartFeed.Source.Page

/-!
# Talking to a source of tables

* `Call` : what can be asked of a source, `Call.Answer` what is answered.
* `Source` : a source with a state of its own.
* `Session` : computations that ask a source; the calls are recorded in order, failed ones too.
* `Session.ask` : one call.
* `Session.collect` : all pages of a table, each asked for with the cursor of the one before it.
* `checkToken` : whether a text can be a token of the table service.
-/

namespace ChartFeed

open ChartFeed.Filter (Query)

/-- What can be asked of a source, always in the name of a token. -/
inductive Call where
  /-- One page of a table: the rows that a query lets through, from a cursor on. -/
  | page (token table : String) (query : Option Query) (size : Nat) (cursor : Option String)
  /-- The columns of a table. -/
  | schema (token table : String)
  /-- The tables that the token opens. -/
  | tables (token : String)
  deriving DecidableEq, Repr

namespace Call

/-- What a call is answered with. -/
abbrev Answer : Call → Type
  | .page .. => Page
  | .schema .. => Schema
  | .tables .. => List Summary

def token : Call → String
  | .page token .. => token
  | .schema token _ => token
  | .tables token => token

end Call

/-- A source of tables. Its state may change with every call. -/
structure Source (σ : Type) where
  answer : (c : Call) → σ → Except Failure c.Answer × σ

/-- The state of a source and the calls made so far. -/
structure Dialogue (σ : Type) where
  state : σ
  calls : List Call
  deriving Repr

/-- Why a computation ends without a result. -/
inductive Stop where
  | failed (f : Failure)
  /-- The source kept announcing further pages. -/
  | unfinished
  deriving DecidableEq, Repr

/-- Computations that ask a source. -/
abbrev Session (σ : Type) := ExceptT Stop (StateM (Dialogue σ))

namespace Session

variable {σ : Type}

/-- Asks a source; the call is recorded whatever comes of it. -/
def ask (source : Source σ) (c : Call) : Session σ c.Answer := fun d =>
  let (answer, state) := source.answer c d.state
  let d := ⟨state, d.calls ++ [c]⟩
  match answer with
  | .ok a => (.ok a, d)
  | .error f => (.error (.failed f), d)

/-- What a collection of pages asks for. -/
structure Sweep where
  token : String
  table : String
  query : Option Query
  size : Nat
  deriving DecidableEq, Repr

def Sweep.call (s : Sweep) (cursor : Option String) : Call :=
  .page s.token s.table s.query s.size cursor

/-- The rows of the page at a cursor and of all pages after it, of no more pages than the limit. A
page that fails ends the collection, and the rows before it are dropped. -/
def collectFrom (source : Source σ) (s : Sweep) : Nat → Option String → Session σ (List Json)
  | 0, _ => throw .unfinished
  | limit + 1, cursor => do
    let page : Page ← ask source (s.call cursor)
    match page.next? with
    | some next => return page.rows ++ (← collectFrom source s limit (some next))
    | none => return page.rows

def collect (source : Source σ) (s : Sweep) (limit : Nat) : Session σ (List Json) :=
  collectFrom source s limit none

end Session

/-- The beginnings that tokens of the table service have. -/
def tokenHeads : List String := ["secret_", "ntn_"]

/-- Refuses a text that cannot be a token of the table service. -/
def checkToken (token : String) : Except Failure Unit :=
  if tokenHeads.any fun head => head.toList.isPrefixOf token.toList then .ok ()
  else .error (.invalidRequest
    "invalid token format, token must start with \"secret_\" or \"ntn_\"")

end ChartFeed
