import Telemetry.Agent.Options
import Telemetry.Http.Message
import Telemetry.Net.Uri
import Telemetry.Url.Parse

namespace Telemetry.Agent

structure Network (σ : Type) where
  /-- The bytes that are drawn at random to fill up a message before it is encrypted. -/
  draw : σ → Bytes × σ
  /-- What becomes of a request to a URL: the status of its answer, or why there is none. -/
  exchange : Url → Request → σ → Except SendFault Nat × σ

structure HttpSender where
  base : Url
  sealing : Envelope.Sealing
  format : WireFormat

namespace HttpSender

def ofBase (base : String) (sealing : Envelope.Sealing) (format : WireFormat) :
    Except SendFault HttpSender :=
  match Url.parse base with
  | some url => .ok ⟨url, sealing, format⟩
  | none => .error (.request ("invalid server URL '" ++ base ++ "'"))

def place (sender : HttpSender) (segments : List String) : Except SendFault Url :=
  match sender.base.extend? segments with
  | some url => .ok url
  | none => .error (.request ("server URL '" ++ sender.base.toText ++ "' cannot be a base"))

def tagHeader (tag : Option String) : List (String × Bytes) :=
  match tag with
  | some tag => [("HashSHA256", Bytes.ofText tag)]
  | none => []

/-- A request without a body, whose path names the metric; with a key, the empty body is signed. -/
def pathRequest (sender : HttpSender) (m : Metric) : Except SendFault (Url × Request) := do
  let url ← sender.place ["update", m.kind.name, m.id, m.value.toPathSegment]
  return (url, {
    method := "POST", target := url.target
    headers := ("content-type", Bytes.ofText "text/plain") :: tagHeader (sender.sealing.sign []) })

def envelopeRequest (url : Url) (envelope : Envelope) : Request :=
  let coding := if envelope.gzip then [("content-encoding", Bytes.ofText "gzip")] else []
  { method := "POST", target := url.target, body := envelope.body
    headers :=
      ("content-type", Bytes.ofText "application/json") :: coding ++ tagHeader envelope.signature }

def sealedRequest (sender : HttpSender) (segments : List String)
    (sealed : Except Envelope.Fault Envelope) : Except SendFault (Url × Request) := do
  let envelope ← sealed.mapError .encoding
  let url ← sender.place segments
  return (url, envelopeRequest url envelope)

def jsonRequest (sender : HttpSender) (m : Metric) (filler : Bytes) :
    Except SendFault (Url × Request) :=
  sender.sealedRequest ["update", ""] (sender.sealing.sealMetric filler m)

def batchRequest (sender : HttpSender) (ms : List Metric) (filler : Bytes) :
    Except SendFault (Url × Request) :=
  sender.sealedRequest ["updates", ""] (sender.sealing.sealBatch filler ms)

def metricRequest (sender : HttpSender) (m : Metric) (filler : Bytes) :
    Except SendFault (Url × Request) :=
  match sender.format with
  | .path => sender.pathRequest m
  | .batch => sender.batchRequest [m] filler
  | .json | .rpc => sender.jsonRequest m filler

/-- The requests of a job in their order, each by the bytes that are drawn for it; and each of them
may turn out not to be possible. -/
def requests (sender : HttpSender) : Job → List (Bytes → Except SendFault (Url × Request))
  | .single m => [sender.metricRequest m]
  | .batch ms =>
    if sender.format = .batch then [sender.batchRequest ms] else ms.map sender.metricRequest

def isReachable (url : Url) : Bool :=
  (url.scheme == "http" || url.scheme == "https") && Net.Uri.isValid url.publicText

/-- Makes one request, which succeeds with a status between 200 and 299. -/
def exchange {σ : Type} (network : Network σ) (url : Url) (request : Request) (state : σ) :
    Except SendFault Unit × σ :=
  if isReachable url then
    match network.exchange url request state with
    | (.ok status, state) =>
      (if 200 ≤ status ∧ status < 300 then .ok () else .error (.status status), state)
    | (.error fault, state) => (.error fault, state)
  else (.error (.request "builder error"), state)

/-- Prepares and makes one request after the other. Bytes are drawn for every one of them, whether
it is encrypted or not. -/
def exchangeAll {σ : Type} (network : Network σ) :
    List (Bytes → Except SendFault (Url × Request)) → σ → Except SendFault Unit × σ
  | [], state => (.ok (), state)
  | prepare :: rest, state =>
    let (filler, state) := network.draw state
    match prepare filler with
    | .error fault => (.error fault, state)
    | .ok (url, request) =>
      match exchange network url request state with
      | (.ok (), state) => exchangeAll network rest state
      | (.error fault, state) => (.error fault, state)

def transport {σ : Type} (sender : HttpSender) (network : Network σ) : Transport σ := fun job =>
  exchangeAll network (sender.requests job)

end HttpSender
end Telemetry.Agent
