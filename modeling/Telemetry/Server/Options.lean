import Telemetry.Config
import Telemetry.Net.Socket
import Telemetry.Server.Api
import Telemetry.Text.Cut

namespace Telemetry.Server

structure Options where
  address : String := "0.0.0.0:8080"
  rpcAddress : String := "0.0.0.0:3200"
  /-- Seconds between two snapshots; with zero every write is followed by one. -/
  storeInterval : Nat := 300
  snapshotPath : String := "/tmp/metrics-db.json"
  restore : Bool := true
  /-- The database, instead of memory and snapshots. -/
  database : Option String := none
  key : Option String := none
  /-- The file of the private key. -/
  privateKey : Option String := none
  /-- Seconds that a request may take. -/
  requestTimeout : Nat := 10
  maxBody : Nat := 1048576
  deriving DecidableEq, Repr

namespace Options

open Config

def ofEntries (entries : Toml.Entries) : Option Options := do
  let standard : Options := {}
  return {
    address := ← field entries "address" text? standard.address
    rpcAddress := ← field entries "grpc_address" text? standard.rpcAddress
    storeInterval := ← field entries "store_interval_secs" nat? standard.storeInterval
    snapshotPath := ← field entries "file_storage_path" text? standard.snapshotPath
    restore := ← field entries "restore" boolean? standard.restore
    database := ← field entries "database_dsn" (text? · |>.map some) none
    key := ← field entries "key" (text? · |>.map some) none
    privateKey := ← field entries "crypto_key" (text? · |>.map some) none
    requestTimeout := ← field entries "request_timeout_secs" nat? standard.requestTimeout
    maxBody := ← field entries "max_body_bytes" nat? standard.maxBody }

def override (env : Environment) (options : Options) : Except Fault Options := do
  let options ← withVariable env "ADDRESS" (fun v o => .ok { o with address := v }) options
  let options ← withVariable env "GRPC_ADDRESS" (fun v o => .ok { o with rpcAddress := v }) options
  let options ← withVariable env "STORE_INTERVAL"
    (fun v o => do return { o with storeInterval := ← parsed "STORE_INTERVAL" parseNat v }) options
  let options ← withVariable env "FILE_STORAGE_PATH"
    (fun v o => .ok { o with snapshotPath := v }) options
  let options ← withVariable env "RESTORE"
    (fun v o => do return { o with restore := ← parsed "RESTORE" parseBool v }) options
  let options ← withVariable env "DATABASE_DSN"
    (fun v o => .ok { o with database := unlessBlank v }) options
  let options ← withVariable env "KEY" (fun v o => .ok { o with key := unlessBlank v }) options
  withVariable env "CRYPTO_KEY" (fun v o => .ok { o with privateKey := unlessBlank v }) options

def load (path : String) (files : Files) (env : Environment) : Except Fault Options := do
  (← ofFile "server" path ofEntries {} files).override env

def socket (options : Options) : Except Fault Net.Socket :=
  match Net.Socket.ofText? options.address with
  | some socket => .ok socket
  | none => .error (.badAddress "HTTP" options.address)

def rpcSocket (options : Options) : Except Fault Net.Socket :=
  match Net.Socket.ofText? options.rpcAddress with
  | some socket => .ok socket
  | none => .error (.badAddress "gRPC" options.rpcAddress)

/-- How a server opens what it is sent: under its keys, and within the limit for bodies. -/
def opening (options : Options) (files : Files) : Except Fault Envelope.Opening := do
  let privateKey ← match options.privateKey with
    | none => pure none
    | some path =>
      match Envelope.loadKey Rsa.PrivateKey.ofFile? (files.read path).toOption with
      | .ok key => pure (some key)
      | .error _ => throw (.badKey "private" path)
  return ⟨options.key.map Bytes.ofText, privateKey, some options.maxBody⟩

def server {σ : Type} (options : Options) (storage : Storage σ) (files : Files) :
    Except Fault (Server σ) := do
  return setUp storage (← options.opening files) options.maxBody (1000 * options.requestTimeout)

end Options

/-- A data source name without its password: what stands between the first colon of the user part
and the first at sign. -/
def redact (name : String) : String :=
  (do
    let (scheme, rest) ← Text.cut? "://".toList name.toList
    let (user, host) ← Text.cut? ['@'] rest
    let (user, _) ← Text.cut? [':'] user
    return String.ofList (scheme ++ "://".toList ++ user ++ ":***@".toList ++ host)).getD name

end Telemetry.Server
