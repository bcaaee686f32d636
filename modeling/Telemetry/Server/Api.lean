import Telemetry.Envelope
import Telemetry.Server.Page
import Telemetry.Server.Route

/-!
What the routes do. An update is validated as a whole before anything is applied; then every metric
goes into the store in one place.
-/
namespace Telemetry

inductive ApiFault where
  | badRequest (reason : String)
  | notFound (reason : String)
  | unsupportedKind (reason : String)
  | storage (fault : StoreFault)
  /-- The store was too slow, and nothing was applied. -/
  | timedOut
  deriving DecidableEq, Repr

namespace ApiFault

def status : ApiFault → Nat
  | badRequest _ => 400
  | notFound _ => 404
  | unsupportedKind _ => 422
  | storage _ => 500
  | timedOut => 408

def message : ApiFault → String
  | badRequest reason | notFound reason | unsupportedKind reason => reason
  | storage fault => "storage failure: " ++ fault.message?.getD "Storage: no answer"
  | timedOut => ""

def ofInvalid (invalid : Invalid) : ApiFault :=
  match invalid with
  | .unsupportedKind _ => unsupportedKind invalid.message
  | _ => badRequest invalid.message

def ofStore (fault : StoreFault) : ApiFault :=
  match fault with
  | .notFound _ => notFound (fault.message?.getD "")
  | .invalid reason => ofInvalid reason
  | _ => storage fault

def ofJson (fault : Json.Fault) : ApiFault :=
  badRequest ("malformed JSON: " ++ match fault with
    | .ended => "the document ends too early"
    | .malformed => "an unexpected character in the document"
    | .unfit => "a value of another type or out of its range")

def response (fault : ApiFault) : Response := Response.text fault.status fault.message

end ApiFault

structure Server (σ : Type) where
  storage : Storage σ
  opening : Envelope.Opening
  /-- The longest body that is accepted, as it comes and as it is opened. -/
  maxBody : Nat
  /-- How long a request may take, in milliseconds. -/
  timeout : Nat
  /-- How long the store takes before a write is applied. -/
  writeTime : Nat := 0

namespace Server

variable {σ : Type}

/-- A server over a store; unless the options have a limit for inflated bodies, it is the one for
bodies. -/
def setUp (storage : Storage σ) (opening : Envelope.Opening) (maxBody timeout : Nat) : Server σ :=
  ⟨storage, { opening with limit := some (opening.limit.getD maxBody) }, maxBody, timeout, 0⟩

/-- Applies metrics in order, one of them alone by an update and several as a batch. -/
def apply (server : Server σ) : List Metric → σ → Except StoreFault Unit × σ
  | [], state => (.ok (), state)
  | [m], state => server.storage.update m state
  | ms, state => server.storage.updateBatch ms state

def isTooSlow (server : Server σ) :
    Bool := 0 < server.writeTime && server.timeout ≤ server.writeTime

def ingest (server : Server σ) (ms : List Metric) (state : σ) : Except ApiFault Unit × σ :=
  if ms ≠ [] ∧ server.isTooSlow then (.error .timedOut, state)
  else
    let (result, state) := server.apply ms state
    (result.mapError ApiFault.ofStore, state)

def readWire (body : Bytes) : Except ApiFault Wire :=
  (Json.document Wire.ofJson body).mapError ApiFault.ofJson

def readMetric (body : Bytes) : Except ApiFault Metric := do
  (← readWire body).toMetric.mapError ApiFault.ofInvalid

/-- Reads a list of records; the first that is no valid metric refuses the list. -/
def readBatch (body : Bytes) : Except ApiFault (List Metric) := do
  let wires ← (Json.document (Json.list Wire.ofJson) body).mapError ApiFault.ofJson
  wires.mapM fun wire => wire.toMetric.mapError ApiFault.ofInvalid

def readKey (body : Bytes) : Except ApiFault Key := do
  (← readWire body).key.mapError ApiFault.ofInvalid

def decodeParameter (name raw : String) : Except ApiFault String :=
  (Route.decode name raw).mapError fun name =>
    .badRequest ("Invalid URL: Invalid UTF-8 in `" ++ name ++ "`")

def readPath (kind name value : String) : Except ApiFault Metric := do
  let kind ← decodeParameter "kind" kind
  let name ← decodeParameter "name" name
  let value ← decodeParameter "value" value
  let kind ← (Kind.read kind).mapError ApiFault.ofInvalid
  if name = "" then throw (.notFound "metric name is required")
  let value ← (kind.readValue value).mapError ApiFault.ofInvalid
  return ⟨name, value⟩

def readLookup (kind name : String) : Except ApiFault Key := do
  let kind ← decodeParameter "kind" kind
  let name ← decodeParameter "name" name
  let kind ← (Kind.read kind).mapError ApiFault.ofInvalid
  return ⟨name, kind⟩

/-- A body that a route reads must not be longer than the limit, opened as it is. -/
def withinLimit (server : Server σ) (body : Bytes) : Except Response Unit :=
  if server.maxBody < body.length then
    .error (Response.text 413 "Failed to buffer the request body: length limit exceeded")
  else .ok ()

def update (server : Server σ) (parsed : Except ApiFault (List Metric))
    (answer : List Metric → σ → Except ApiFault Response) (state : σ) :
    Except ApiFault Response × σ :=
  match parsed with
  | .error fault => (.error fault, state)
  | .ok ms =>
    match server.ingest ms state with
    | (.error fault, state) => (.error fault, state)
    | (.ok (), state) => (answer ms state, state)

def lookup (server : Server σ) (key : Key) (state : σ) : Except ApiFault Metric :=
  (server.storage.get key state).mapError ApiFault.ofStore

def storedMetric (server : Server σ) (ms : List Metric) (state : σ) : Except ApiFault Response := do
  match ms with
  | m :: _ => return Response.json (← server.lookup m.key state).toJson
  | [] => return Response.json []

def updatedCount (ms : List Metric) : Response :=
  Response.json (Json.object [("updated", Bytes.ofAscii (Nat.toDigits 10 ms.length))])

def pingResponse (server : Server σ) (state : σ) : Response :=
  match server.storage.ping state with
  | .ok () => Response.text 200 "OK"
  | .error _ => Response.text 500 "storage unavailable"

def serve (server : Server σ) (route : Route) (body : Bytes) (state : σ) :
    Except ApiFault Response × σ :=
  let reading (answer : Except ApiFault Response × σ) : Except ApiFault Response × σ :=
    match server.withinLimit body with
    | .error refusal => (.ok refusal, state)
    | .ok () => answer
  match route with
  | .index =>
    ((server.storage.all state).mapError ApiFault.ofStore |>.map fun all =>
      Response.html (Page.render all), state)
  | .ping => (.ok (server.pingResponse state), state)
  | .updatePath kind name value =>
    server.update ((readPath kind name value).map ([·])) (fun _ _ => .ok (Response.text 200 "OK"))
      state
  | .update => reading (server.update ((readMetric body).map ([·])) server.storedMetric state)
  | .updates => reading (server.update (readBatch body) (fun ms _ => .ok (updatedCount ms)) state)
  | .value =>
    reading ((do return Response.json (← server.lookup (← readKey body) state).toJson), state)
  | .valuePath kind name =>
    ((do return Response.text 200 (← server.lookup (← readLookup kind name) state).value.toText),
      state)

end Server
end Telemetry
