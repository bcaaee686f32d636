import Telemetry.Agent.Delivery
import Telemetry.Net.Uri
import Telemetry.Rpc.Call

namespace Telemetry.Agent

/-- How a call ended: zero for success or the code of a failure, and its message. -/
structure RpcStatus where
  code : Nat
  message : String := ""
  deriving DecidableEq, Repr

abbrev RpcNetwork (σ : Type) := Call → σ → RpcStatus × σ

structure RpcSender where
  sealing : Envelope.Sealing

namespace RpcSender

def ofEndpoint (endpoint : String) (sealing : Envelope.Sealing) : Except SendFault RpcSender :=
  if Net.Uri.isValid endpoint then .ok ⟨sealing⟩
  else .error (.request ("invalid gRPC endpoint '" ++ endpoint ++ "'"))

def call (sender : RpcSender) (m : Metric) : Call where
  name := m.id
  value := m.value
  metadata := match sender.sealing.sign m.toJson with
    | some tag => [(Call.tagName, Bytes.ofText tag)]
    | none => []

/-- A deadline that has passed is a timeout, and an unavailable server no connection. -/
def resultOf (status : RpcStatus) : Except SendFault Unit :=
  match status.code with
  | 0 => .ok ()
  | 4 => .error .timeout
  | 14 => .error (.connect status.message)
  | code => .error (.rpc code status.message)

def sendAll {σ : Type} (sender : RpcSender) (network : RpcNetwork σ) :
    List Metric → σ → Except SendFault Unit × σ
  | [], state => (.ok (), state)
  | m :: rest, state =>
    let (status, state) := network (sender.call m).carried state
    match resultOf status with
    | .ok () => sendAll sender network rest state
    | .error fault => (.error fault, state)

def transport {σ : Type} (sender : RpcSender) (network : RpcNetwork σ) : Transport σ := fun job =>
  sender.sendAll network job.metrics

end RpcSender
end Telemetry.Agent
