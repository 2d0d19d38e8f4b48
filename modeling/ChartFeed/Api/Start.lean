import ChartFeed.Api.Service
import ChartFeed.Settings.Basic
import ChartFeed.Source.Client

/-!
# Starting the service

* `Settings.cipher` : the cipher that credentials are stored under.
* `Service.ofParts` : a service over a shelf and a source.
* `Service.start` : the service of settings, with snapshots in a directory and tables behind a link.
* `StartFault` : why it does not start, `StartFault.message` its wording.
-/

namespace ChartFeed

/-- Why the service does not start. -/
inductive StartFault where
  | missingKey
  | directory (path : String)
  deriving DecidableEq, Repr

namespace StartFault

def message : StartFault → String
  | .missingKey => "no credential encryption key configured"
  | .directory path => "failed to create snapshot directory " ++ path

end StartFault

/-- The cipher of a key, or of the insecure secret when this is allowed. -/
def Settings.cipher (s : Settings) : Except StartFault Credential.Cipher :=
  match s.encryptionKey, s.allowInsecureKey with
  | some key, _ => .ok (.ofSecret key)
  | none, true => .ok .insecure
  | none, false => .error .missingKey

namespace Api.Service

variable {σ τ : Type}

/-- A service over a shelf and a source. -/
def ofParts (s : Settings) (cipher : Credential.Cipher) (shelf : Shelf τ) (source : Source σ)
    (pageLimit : Nat) : Service σ τ where
  vault := { cipher, shelf, source, pageSize := s.pageSize, pageLimit }
  apiKey := s.apiKey

/-- The table service that settings name, behind a link. -/
def client (s : Settings) (link : Link σ) : Client σ := ⟨s.baseUrl, s.version, link⟩

/-- The service of settings and the directory that its snapshots are kept in. `openDirectory`
answers what stands in a directory, which is made if need be, or none if it cannot be made. -/
def start (s : Settings) (link : Link σ) (openDirectory : String → Directory) (pageLimit : Nat) :
    Except StartFault (Service σ Directory × Directory) := do
  let cipher ← s.cipher
  match openDirectory s.snapshotDirectory with
  | none => throw (.directory s.snapshotDirectory)
  | some entries =>
    return (ofParts s cipher Directory.shelf (client s link).source pageLimit, some entries)

end Api.Service

end ChartFeed
