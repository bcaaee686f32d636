import Telemetry.Envelope
import Telemetry.Retry

namespace Telemetry

/-- What a worker sends at a time: one metric, or all metrics of a report. -/
inductive Job where
  | single (metric : Metric)
  | batch (metrics : List Metric)
  deriving DecidableEq, Repr

namespace Job

def metrics : Job → List Metric
  | single metric => [metric]
  | batch metrics => metrics

def size (job : Job) : Nat := job.metrics.length

def ofReport (batched : Bool) (report : List Metric) : List Job :=
  if batched then [.batch report] else report.map .single

end Job

inductive SendFault where
  | timeout
  | connect (reason : String)
  | status (code : Nat)
  | rpc (code : Nat) (reason : String)
  | encoding (fault : Envelope.Fault)
  | request (reason : String)
  | exhausted (attempts : Nat) (last : SendFault)
  deriving DecidableEq, Repr

namespace SendFault

def isTransient : SendFault → Bool
  | timeout => true
  | _ => false

def message : SendFault → String
  | timeout => "Send: request timed out"
  | connect reason => "Send: cannot connect: " ++ reason
  | status code => "Send: server responded with status " ++ toString code
  | rpc _ reason => "Send: gRPC call failed: " ++ reason
  | encoding fault => "Send: encoding failed: " ++ fault.message?.getD ""
  | request reason => "Send: request failed: " ++ reason
  | exhausted attempts last =>
    "Send: connection failed after " ++ toString attempts ++ " attempts: " ++ last.message

end SendFault

abbrev Transport (σ : Type) := Job → σ → Except SendFault Unit × σ

def SendFault.ofFailure : Retry.Failure SendFault → SendFault
  | .exhausted attempts last => .exhausted attempts last
  | .permanent fault => fault

structure Delivery (σ : Type) where
  result : Except SendFault Unit
  attempts : Nat
  slept : List Nat
  state : σ

def Transport.deliver {σ : Type} (transport : Transport σ) (schedule : Retry.Schedule) (job : Job)
    (state : σ) : Delivery σ :=
  let outcome := Retry.run schedule SendFault.isTransient (fun _ => transport job) state
  ⟨outcome.result.mapError SendFault.ofFailure, outcome.attempts, outcome.slept, outcome.state⟩

def Transport.deliverAll {σ : Type} (transport : Transport σ) (schedule : Retry.Schedule) :
    List Job → σ → List (Delivery σ) × σ
  | [], state => ([], state)
  | job :: rest, state =>
    let delivery := transport.deliver schedule job state
    let (more, state) := transport.deliverAll schedule rest delivery.state
    (delivery :: more, state)

/-- The deliveries of a number of workers for whom every job is queued; without workers no job is
taken. -/
def Transport.deliverBy {σ : Type} (transport : Transport σ) (schedule : Retry.Schedule)
    (workers : Nat) (jobs : List Job) (state : σ) : List (Delivery σ) × σ :=
  if workers = 0 then ([], state) else transport.deliverAll schedule jobs state

end Telemetry
