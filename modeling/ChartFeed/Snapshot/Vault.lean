import ChartFeed.Calendar.Instant
import ChartFeed.Credential.Cipher
import ChartFeed.Filter.Compile
import ChartFeed.Filter.Edit
import ChartFeed.Snapshot.Store
import ChartFeed.Source.Session

/-!
# The vault of snapshots

* `World` : the source and the store as they are at a moment.
* `Act` : computations that ask the source and use the store.
* `Fresh` : what a step takes from outside, the time and random texts.
* `Vault.save`, `Vault.execute`, `Vault.config` : saving a chart, running it, showing its set-up.
-/

namespace ChartFeed

open ChartFeed.Filter (Group Query)

/-- The source and the store as they are at a moment. -/
structure World (σ τ : Type) where
  dialogue : Dialogue σ
  store : τ
  deriving Repr

/-- Computations that ask the source and use the store. -/
abbrev Act (σ τ : Type) := ExceptT Stop (StateM (World σ τ))

namespace Act

variable {σ τ α : Type}

def fail (f : Failure) : Act σ τ α := throw (.failed f)

/-- Goes on with a result or ends with its failure. -/
def check : Except Failure α → Act σ τ α
  | .ok a => pure a
  | .error f => fail f

/-- A computation that leaves the store alone. -/
def consult (session : Session σ α) : Act σ τ α := fun w =>
  let (result, dialogue) := session w.dialogue
  (result, { w with dialogue })

def keep (shelf : Shelf τ) (nonce : String) (r : Snapshot) : Act σ τ Unit := fun w =>
  let (result, store) := shelf.put nonce r w.store
  (result.mapError .failed, { w with store })

def lookup (shelf : Shelf τ) (id : String) : Act σ τ (Option Snapshot) := fun w =>
  ((shelf.get id w.store).mapError .failed, w)

end Act

/-- What a step takes from outside: the time in milliseconds, the end of a new id, an initial vector
and a text for the store. -/
structure Fresh where
  now : Int
  idEnd : String
  iv : Block
  nonce : String

/-- What the vault works with. A chart is made of no more pages than the limit. -/
structure Vault (σ τ : Type) where
  cipher : Credential.Cipher
  shelf : Shelf τ
  source : Source σ
  pageSize : Nat
  pageLimit : Nat

namespace Vault

variable {σ τ : Type}

/-- Refuses a field that is left blank. -/
def require (field value : String) : Except Failure Unit :=
  if Text.isAllBlank value then .error (.invalidRequest (field ++ " is required")) else .ok ()

/-- Refuses a request that lacks a field or a token. -/
def checkRequest (r : SaveRequest) : Except Failure Unit := do
  require "databaseId" r.table
  require "xProperty" r.x
  require "yProperty" r.y
  checkToken r.token

def newId (fresh : Fresh) : String := "query_" ++ toString fresh.now ++ "_" ++ fresh.idEnd

/-- The record of a request. An empty label is none, and filters are kept without empty groups. -/
def record (cipher : Credential.Cipher) (fresh : Fresh) (r : SaveRequest) : Snapshot where
  schemaVersion := Snapshot.currentVersion
  id := newId fresh
  table := r.table
  credential := Credential.Cipher.encrypt cipher fresh.iv r.token
  x := r.x
  y := r.y
  label := r.label.filter (!·.isEmpty)
  chartType := r.chartType
  function := r.function
  title := r.title
  mode := .dynamic
  isDemo := r.isDemo.getD false
  timestamp := fresh.now
  createdAt := Instant.stamp fresh.now
  lastUpdated := none
  filters := Filter.compact (r.filters.getD [])

/-- Saves a chart under a new id, its token encrypted. -/
def save (v : Vault σ τ) (fresh : Fresh) (r : SaveRequest) : Act σ τ Receipt := do
  Act.check (checkRequest r)
  let snapshot := record v.cipher fresh r
  Act.keep v.shelf fresh.nonce snapshot
  return ⟨snapshot.id, snapshot.timestamp, snapshot.mode⟩

def load (v : Vault σ τ) (id : String) : Act σ τ Snapshot := do
  Act.check (checkId id)
  match ← Act.lookup v.shelf id with
  | some snapshot => return snapshot
  | none => Act.fail (.notFound ("query snapshot '" ++ id ++ "'"))

/-- The query of a snapshot; the columns are asked for only if there are filters. -/
def query (v : Vault σ τ) (s : Snapshot) (token : String) : Session σ (Option Query) := do
  if s.filters.isEmpty then return none
  let schema : Schema ← Session.ask v.source (.schema token s.table)
  return Filter.compile s.filters schema.properties

/-- The rows of a snapshot's table that its query lets through. -/
def rows (v : Vault σ τ) (s : Snapshot) (token : String) : Session σ (List Json) := do
  let query ← v.query s token
  Session.collect v.source ⟨token, s.table, query, v.pageSize⟩ v.pageLimit

/-- Runs a snapshot: its rows are asked for anew and drawn, and the record is stamped. -/
def execute (v : Vault σ τ) (fresh : Fresh) (id : String) : Act σ τ Execution := do
  let snapshot ← v.load id
  let token ← Act.check ((Credential.Cipher.decrypt v.cipher snapshot.credential).mapError
    Failure.credential)
  let rows ← Act.consult (v.rows snapshot token)
  Act.keep v.shelf fresh.nonce { snapshot with lastUpdated := some (Instant.stamp fresh.now) }
  return {
    id := snapshot.id
    points := Chart.aggregate snapshot.axes rows
    chartType := snapshot.chartType
    function := snapshot.function
    title := snapshot.title
    isDemo := snapshot.isDemo
    timestamp := snapshot.timestamp
    createdAt := snapshot.createdAt
    rows }

def config (v : Vault σ τ) (id : String) : Act σ τ Json := do
  return (← v.load id).config

end Vault

end ChartFeed
