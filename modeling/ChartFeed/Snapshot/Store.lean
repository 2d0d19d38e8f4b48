import ChartFeed.Json.Printer
import ChartFeed.Json.Reader
import ChartFeed.Snapshot.Record

/-!
# Stores of snapshots

* `Shelf` : what a store can do; its state is a value.
* `Store`, `Store.shelf` : records in memory under their ids.
* `Directory`, `Directory.shelf` : one file a record, written beside its place and then moved there.
-/

namespace ChartFeed

/-- What a store can do. Writing is given a text that no earlier write was given. -/
structure Shelf (τ : Type) where
  put : String → Snapshot → τ → Except Failure Unit × τ
  get : String → τ → Except Failure (Option Snapshot)

/-! ## In memory -/

/-- Records under their ids. -/
structure Store where
  records : List (String × Snapshot)
  deriving DecidableEq, Repr

namespace Store

def empty : Store := ⟨[]⟩

def size (s : Store) : Nat := s.records.length

def find? (s : Store) (id : String) : Option Snapshot := s.records.lookup id

/-- The records with one more, in place of one under the same id. -/
def insertRecord (r : Snapshot) : List (String × Snapshot) → List (String × Snapshot)
  | [] => [(r.id, r)]
  | (id, old) :: rest => if id = r.id then (id, r) :: rest else (id, old) :: insertRecord r rest

def insert (s : Store) (r : Snapshot) : Store := ⟨insertRecord r s.records⟩

def put (r : Snapshot) (s : Store) : Except Failure Unit × Store :=
  match checkId r.id with
  | .error f => (.error f, s)
  | .ok () => (.ok (), s.insert r)

def get (id : String) (s : Store) : Except Failure (Option Snapshot) := do
  checkId id
  match s.find? id with
  | none => return none
  | some r => return some (← checkVersion r)

def shelf : Shelf Store := ⟨fun _ => put, get⟩

end Store

/-! ## In a directory -/

/-- What stands under a name. -/
inductive Entry where
  | file (text : String)
  | folder
  deriving DecidableEq, Repr

/-- The entries of a directory by name, in no particular order; none when the directory is gone. -/
abbrev Directory := Option (List (String × Entry))

namespace Directory

/-- The longest name of an entry in bytes. -/
def maxName : Nat := 255

def fileName (id : String) : String := id ++ ".json"

/-- The name that a record is written under before it is moved to its place. -/
def stagingName (id nonce : String) : String := id ++ ".json." ++ nonce ++ ".tmp"

def entry? (name : String) (d : Directory) : Option Entry := d.bind (List.lookup name)

/-- The directory without the file of a name; a folder of the name stays. -/
def remove (name : String) (d : Directory) : Directory :=
  d.map fun entries => entries.filter fun (n, e) => n != name || e == .folder

/-- The directory with an entry, in place of one of the same name. -/
def set (name : String) (e : Entry) (d : Directory) : Directory :=
  d.map fun entries => (name, e) :: entries.filter (·.1 != name)

/-- Writes a file. It fails without a trace where there is no such directory, where the name is too
long or stands for a folder; `cut` is set when it fails under way, so many characters being
written. -/
def write (cut : Option Nat) (name text : String) (d : Directory) : Bool × Directory :=
  if d.isNone || maxName < name.utf8ByteSize || d.entry? name == some .folder then (false, d)
  else match cut with
    | none => (true, d.set name (.file text))
    | some n => (false, d.set name (.file (String.ofList (text.toList.take n))))

/-- Moves a file to another name, in place of a file there; a folder there keeps its place. -/
def rename (name target : String) (d : Directory) : Bool × Directory :=
  match d.entry? name with
  | some (.file text) =>
    if maxName < target.utf8ByteSize || d.entry? target == some .folder then (false, d)
    else (true, (d.remove name).set target (.file text))
  | _ => (false, d)

def recordText (r : Snapshot) : String := r.toJson.pretty

/-- Keeps a record in its file. Whatever fails, what was written beside the file is removed. -/
def put (cut : Option Nat) (nonce : String) (r : Snapshot) (d : Directory) :
    Except Failure Unit × Directory :=
  match checkId r.id with
  | .error f => (.error f, d)
  | .ok () =>
    let staging := stagingName r.id nonce
    match d.write cut staging (recordText r) with
    | (false, d) => (.error .internal, d.remove staging)
    | (true, d) =>
      match d.rename staging (fileName r.id) with
      | (false, d) => (.error .internal, d.remove staging)
      | (true, d) => (.ok (), d)

/-- The record of an id, if its file is there. A name that is too long is refused by the directory,
which has to be there for it. -/
def get (id : String) (d : Directory) : Except Failure (Option Snapshot) := do
  checkId id
  if d.isSome && maxName < (fileName id).utf8ByteSize then throw .internal
  match d.entry? (fileName id) with
  | none => return none
  | some .folder => throw .internal
  | some (.file text) =>
    match Doc.ofText Snapshot.decoder text with
    | .error _ => throw .internal
    | .ok r => return some (← checkVersion r)

/-- The store in a directory, on a disk that writes without fail. -/
def shelf : Shelf Directory := ⟨put none, get⟩

end Directory

end ChartFeed
