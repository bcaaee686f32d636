import Telemetry.Agent.Http
import Telemetry.Agent.Rpc

namespace Telemetry.Agent

inductive Sender where
  | http (sender : HttpSender)
  | rpc (sender : RpcSender)

inductive SetupFault where
  | config (fault : Config.Fault)
  | send (fault : SendFault)
  deriving DecidableEq, Repr

def Options.sender (options : Options) (files : Files) : Except SetupFault Sender := do
  let sealing ← (options.sealing files).mapError .config
  match options.format with
  | .rpc => return .rpc (← (RpcSender.ofEndpoint options.rpcUrl sealing).mapError .send)
  | format => return .http (← (HttpSender.ofBase options.url sealing format).mapError .send)

def Sender.transport {σ : Type} (sender : Sender) (network : Network σ)
    (rpcNetwork : RpcNetwork σ) :
    Transport σ :=
  match sender with
  | .http sender => sender.transport network
  | .rpc sender => sender.transport rpcNetwork

end Telemetry.Agent
