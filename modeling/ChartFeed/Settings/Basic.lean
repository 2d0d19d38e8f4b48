import ChartFeed.Network.Address
import ChartFeed.Settings.Variables
import ChartFeed.Source.Page
import ChartFeed.Text.Blank

/-!
# Settings of the service

* `Settings` : where the service listens, what it keeps and what it talks to.
* `Settings.ofVariables` : settings read off variables. All variables are read first, then the
  listen address, then the key is asked for.
* `SettingsFault` : why there are no settings, `SettingsFault.message` its wording.
-/

namespace ChartFeed

/-- Where the service listens, what it keeps and what it talks to. -/
structure Settings where
  listen : Endpoint
  snapshotDirectory : String
  encryptionKey : Option String
  /-- Credentials may be encrypted under a secret that everybody knows. -/
  allowInsecureKey : Bool
  baseUrl : String
  version : String
  pageSize : Nat
  timeoutSeconds : Nat
  apiKey : Option String
  deriving DecidableEq, Repr

/-- Why there are no settings. -/
inductive SettingsFault where
  | variable (fault : VariableFault)
  | listenAddress
  | listenParts
  | missingKey
  deriving DecidableEq, Repr

namespace SettingsFault

def message : SettingsFault → String
  | .variable _ => "failed to parse CHART_* environment variables"
  | .listenAddress => "invalid CHART_LISTEN_ADDR value"
  | .listenParts => "invalid listen host/port combination"
  | .missingKey =>
    "CHART_ENCRYPTION_KEY must be set (or CHART_INSECURE_DEFAULT_KEY=true for local use)"

end SettingsFault

namespace Settings

/-- A text without the slashes at its end. -/
def dropSlashes (s : String) : String :=
  String.ofList (s.toList.reverse.dropWhile (· == '/')).reverse

/-- Where to listen: the address, or host and socket with their defaults. -/
def listenOf (address host : Option String) (socket : Option Nat) : Except SettingsFault Endpoint :=
  match address with
  | some address =>
    match Endpoint.read? address with
    | some e => .ok e
    | none => .error .listenAddress
  | none =>
    match Endpoint.read? (host.getD "0.0.0.0" ++ ":" ++ toString (socket.getD 8490)) with
    | some e => .ok e
    | none => .error .listenParts

/-- Settings before they are judged: the variables as they are. -/
structure Raw where
  address : Option String
  host : Option String
  socket : Option Nat
  directory : Option String
  key : Option String
  insecure : Option Bool
  baseUrl : Option String
  version : Option String
  pageSize : Option Nat
  timeout : Option Nat
  apiKey : Option String
  deriving DecidableEq, Repr

def readRaw (vs : Variables) : Except VariableFault Raw := do
  return {
    address := ← vs.text "chart_listen_addr"
    host := ← vs.text "chart_listen_host"
    socket := ← vs.number (1 <<< 16) "chart_listen_port"
    directory := ← vs.text "chart_snapshot_dir"
    key := ← vs.text "chart_encryption_key"
    insecure := ← vs.bool "chart_insecure_default_key"
    baseUrl := ← vs.text "chart_notion_base_url"
    version := ← vs.text "chart_notion_version"
    pageSize := ← vs.number (1 <<< 32) "chart_page_size"
    timeout := ← vs.number (1 <<< 64) "chart_request_timeout_secs"
    apiKey := ← vs.text "chart_api_key" }

/-- The settings of variables. A blank key is none, and so is an empty API key. -/
def ofRaw (r : Raw) : Except SettingsFault Settings := do
  let listen ← listenOf r.address r.host r.socket
  let key := r.key.filter fun key => !Text.isAllBlank key
  let insecure := r.insecure.getD false
  if key.isNone && !insecure then throw .missingKey
  return {
    listen
    snapshotDirectory := r.directory.getD "./snapshots"
    encryptionKey := key
    allowInsecureKey := insecure
    baseUrl := dropSlashes (r.baseUrl.getD "https://api.notion.com/v1")
    version := r.version.getD "2022-06-28"
    pageSize := Page.clampSize (r.pageSize.getD Page.maxSize)
    timeoutSeconds := max (r.timeout.getD 30) 1
    apiKey := r.apiKey.filter (!·.isEmpty) }

def ofVariables (vs : Variables) : Except SettingsFault Settings := do
  ofRaw (← (readRaw vs).mapError .variable)

end Settings

end ChartFeed
