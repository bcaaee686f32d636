import Telemetry.Agent.Timeline
import Telemetry.Config
import Telemetry.Text.Cut

namespace Telemetry.Agent

inductive WireFormat where
  /-- One request for each metric, which its path names. -/
  | path
  /-- One request for each metric, as a JSON object. -/
  | json
  /-- One request for a whole report, as a JSON array. -/
  | batch
  /-- One remote call for each metric. -/
  | rpc
  deriving DecidableEq, Repr

namespace WireFormat

def batched : WireFormat → Bool
  | batch => true
  | path | json | rpc => false

def ofName? : String → Option WireFormat
  | "path" => some path
  | "json" => some json
  | "batch" => some batch
  | "grpc" => some rpc
  | _ => none

def parse (text : List Char) : Except String WireFormat :=
  let name := String.ofList (text.map Char.toLower)
  match ofName? name with
  | some format => .ok format
  | none => .error ("unknown wire format '" ++ name ++ "'")

/-- The format that a document names, by its name or by a table of its name alone. -/
def ofNode? : Toml.Node → Option WireFormat
  | .text name => ofName? name
  | .table _ [(name, node)] | .inline [(name, node)] =>
    match node with
    | .array [] | .inline [] | .table _ [] => ofName? name
    | _ => none
  | _ => none

end WireFormat

structure Options where
  server : String := "localhost:8080"
  rpcServer : String := "localhost:3200"
  /-- Seconds between two samples. -/
  poll : Nat := 2
  /-- Seconds between two reports. -/
  report : Nat := 10
  workers : Nat := 1
  capacity : Nat := 64
  key : Option String := none
  /-- The file of the server's public key. -/
  publicKey : Option String := none
  compress : Bool := true
  format : WireFormat := .batch
  /-- Seconds that an attempt may take. -/
  requestTimeout : Nat := 5
  deriving DecidableEq, Repr

namespace Options

open Config

def ofEntries (entries : Toml.Entries) : Option Options := do
  let standard : Options := {}
  return {
    server := ← field entries "server_endpoint" text? standard.server
    rpcServer := ← field entries "grpc_endpoint" text? standard.rpcServer
    poll := ← field entries "poll_interval_secs" nat? standard.poll
    report := ← field entries "report_interval_secs" nat? standard.report
    workers := ← field entries "rate_limit" nat? standard.workers
    capacity := ← field entries "queue_capacity" nat? standard.capacity
    key := ← field entries "key" (text? · |>.map some) none
    publicKey := ← field entries "crypto_key" (text? · |>.map some) none
    compress := ← field entries "compress" boolean? standard.compress
    format := ← field entries "wire_format" WireFormat.ofNode? standard.format
    requestTimeout := ← field entries "request_timeout_secs" nat? standard.requestTimeout }

def override (env : Environment) (options : Options) : Except Fault Options := do
  let options ← withVariable env "ADDRESS" (fun v o => .ok { o with server := v }) options
  let options ← withVariable env "KEY" (fun v o => .ok { o with key := unlessBlank v }) options
  let options ← withVariable env "CRYPTO_KEY"
    (fun v o => .ok { o with publicKey := unlessBlank v }) options
  let options ← withVariable env "RATE_LIMIT"
    (fun v o => do return { o with workers := ← parsed "RATE_LIMIT" parseNat v }) options
  let options ← withVariable env "POLL_INTERVAL"
    (fun v o => do return { o with poll := ← parsed "POLL_INTERVAL" parseNat v }) options
  let options ← withVariable env "REPORT_INTERVAL"
    (fun v o => do return { o with report := ← parsed "REPORT_INTERVAL" parseNat v }) options
  withVariable env "WIRE_FORMAT"
    (fun v o => do return { o with format := ← parsed "WIRE_FORMAT" WireFormat.parse v }) options

/-- An agent needs a worker, room in its queue, and time between two samples and two reports. -/
def validate (options : Options) : Except Fault Options :=
  if options.workers = 0 then .error (.outOfRange "rate_limit must be at least 1")
  else if options.capacity = 0 then .error (.outOfRange "queue_capacity must be at least 1")
  else if options.poll = 0 then .error (.outOfRange "poll_interval_secs must be positive")
  else if options.report = 0 then .error (.outOfRange "report_interval_secs must be positive")
  else .ok options

def load (path : String) (files : Files) (env : Environment) : Except Fault Options := do
  (← (← ofFile "agent" path ofEntries {} files).override env).validate

/-- An endpoint without blanks around it and slashes at its end; one without a scheme has `http`. -/
def withScheme (endpoint : String) : String :=
  let trimmed := ((Text.trim endpoint.toList).reverse.dropWhile (· == '/')).reverse
  if Text.contains "://".toList trimmed then String.ofList trimmed
  else "http://" ++ String.ofList trimmed

def url (options : Options) : String := withScheme options.server

def rpcUrl (options : Options) : String := withScheme options.rpcServer

def sealing (options : Options) (files : Files) : Except Fault Envelope.Sealing := do
  let publicKey ← match options.publicKey with
    | none => pure none
    | some path =>
      match Envelope.loadKey Rsa.PublicKey.ofFile? (files.read path).toOption with
      | .ok key => pure (some key)
      | .error _ => throw (.badKey "public" path)
  return ⟨options.key.map Bytes.ofText, options.compress, publicKey⟩

def settings (options : Options) : Settings where
  poll := 1000 * options.poll
  report := 1000 * options.report
  workers := options.workers
  capacity := options.capacity
  batched := options.format.batched

end Options
end Telemetry.Agent
