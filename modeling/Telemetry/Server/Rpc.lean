import Telemetry.Rpc.Call
import Telemetry.Server.Api

namespace Telemetry

inductive RpcFault where
  | invalidArgument (reason : String)
  | unauthenticated (reason : String)
  | internal (reason : String)
  deriving DecidableEq, Repr

def RpcFault.ofApi : ApiFault → RpcFault
  | .badRequest reason | .unsupportedKind reason => .invalidArgument reason
  | fault => .internal fault.message

namespace Server

variable {σ : Type}

def callTag (call : Call) : Option String :=
  match call.metadata.find? fun entry => Text.lowercase entry.1 == Call.tagName with
  | some (_, value) => Text.ofHeader value
  | none => none

def verifyCall (server : Server σ) (call : Call) (m : Metric) : Except RpcFault Unit :=
  match server.opening.key with
  | none => .ok ()
  | some key =>
    match callTag call with
    | none => .error (.unauthenticated "missing hashsha256 metadata")
    | some tag =>
      if Mac.verify m.toJson tag key then .ok ()
      else .error (.unauthenticated "hashsha256 does not match")

def admitCall (server : Server σ) (call : Call) : Except RpcFault Metric := do
  match call.value with
  | .gauge reading => if !reading.isFinite then
    throw (.invalidArgument "gauge value must be finite")
  | .counter _ => pure ()
  if call.name = "" then throw (.invalidArgument "name is required")
  let m : Metric := ⟨call.name, call.value⟩
  server.verifyCall call m
  return m

def serveCall (server : Server σ) (call : Call) (state : σ) : Except RpcFault Unit × σ :=
  match server.admitCall call with
  | .error fault => (.error fault, state)
  | .ok m =>
    let (result, state) := { server with writeTime := 0 }.ingest [m] state
    (result.mapError RpcFault.ofApi, state)

end Server
end Telemetry
