import Telemetry.Agent.Rpc
import Telemetry.Proofs.Agent.Http
import Telemetry.Proofs.Rpc.Message
import Telemetry.Proofs.Server.Effects

/-!
Signed calls on their way. Main statement: the call that a sender makes of a metric is admitted by a
server with the same key as the very metric, unless its reading is negative zero: that arrives as
zero, under the tag of negative zero.
-/
namespace Telemetry

theorem Mac.verify_sign_eq (message other key : Bytes) :
    verify message (sign other key) key = decide (digest other key = digest message key) := by
  rw [verify, sign, String.toList_ofList, Text.trim_of_no_blank (fun _ => isBlank_of_mem_encode),
    Hex.decode_encode]
  exact Bool.eq_iff_iff.2 (by rw [beq_iff_eq, Option.some.injEq, decide_eq_true_iff])

namespace Agent.RpcSender

variable {σ : Type} {sender : RpcSender} {server : Server σ} {key : Bytes} {m : Metric}

theorem callTag_call (signed : sender.sealing.key = some key) :
    Server.callTag (sender.call m).carried = some (Mac.sign m.toJson key) := by
  have own : (Text.lowercase Call.tagName == Call.tagName) = true := by decide
  have metadata : (sender.call m).carried.metadata =
      [(Call.tagName, Bytes.ofText (Mac.sign m.toJson key))] := by
    simp only [Call.carried, call, Envelope.Sealing.sign, signed, Option.map_some]
  simp only [Server.callTag, metadata, List.find?_cons, own]
  exact Mac.ofHeader_sign m.toJson key

/-- The tag is taken for that of what arrived if the two have one digest. -/
theorem verifyCall_call (signed : sender.sealing.key = some key)
    (shared : server.opening.key = some key) (arrived : Metric) :
    server.verifyCall (sender.call m).carried arrived =
      if Mac.digest m.toJson key = Mac.digest arrived.toJson key then .ok ()
      else .error (.unauthenticated "hashsha256 does not match") := by
  simp only [Server.verifyCall, shared, callTag_call signed, Mac.verify_sign_eq, decide_eq_true_eq]

/-- What a server makes of the call of a metric with a name: it goes by what has arrived, and by the
tag of what was sent. -/
theorem admitCall_call (signed : sender.sealing.key = some key)
    (shared : server.opening.key = some key) (named : m.id ≠ "") (finite : m.value.isFinite) :
    server.admitCall (sender.call m).carried =
      if Mac.digest m.toJson key = Mac.digest (Metric.toJson ⟨m.id, m.value.carried⟩) key then
      .ok ⟨m.id, m.value.carried⟩
      else .error (.unauthenticated "hashsha256 does not match") := by
  have name : (sender.call m).carried.name = m.id := rfl
  have value : (sender.call m).carried.value = m.value.carried := rfl
  have isFinite : ¬ m.value.carried.isFinite = false := by
    rw [Value.isFinite_carried, finite]
    exact nofun
  rw [Server.admitCall_eq, name, value, if_neg isFinite, if_neg named,
    verifyCall_call signed shared]
  split <;> rfl

theorem admitCall_of_ne (signed : sender.sealing.key = some key)
    (shared : server.opening.key = some key) (named : m.id ≠ "") (finite : m.value.isFinite)
    (other : m.value ≠ .gauge .negativeZero) :
    server.admitCall (sender.call m).carried = .ok m := by
  rw [admitCall_call signed shared named finite, Value.carried_of_ne other, if_pos rfl]

theorem serveCall_of_admitted {arrived : Call} (admitted : server.admitCall arrived = .ok m)
    (state : σ) :
    server.serveCall arrived state =
      (((server.storage.update m state).1.mapError ApiFault.ofStore).mapError RpcFault.ofApi,
        (server.storage.update m state).2) := by
  simp only [Server.serveCall, admitted]
  rfl

/-- The call of a metric arrives, and a server with the same key admits and applies the metric as it
was signed, bit for bit, unless its reading is negative zero. That arrives as zero, for which the
tag of negative zero is the right one only if the two have one digest. -/
theorem signed_calls_admitted (sender : RpcSender) (server : Server σ)
    (signed : sender.sealing.key = some key) (shared : server.opening.key = some key)
    (named : m.id ≠ "") (finite : m.value.isFinite)
    (within : (sender.call m).sent.message.length ≤ Message.limit) :
    ∃ arrived, (sender.call m).sent.arrived = some arrived ∧
      (m.value ≠ .gauge .negativeZero → server.verifyCall arrived m = .ok () ∧
        server.admitCall arrived = .ok m ∧
        ∀ state, server.serveCall arrived state =
          (((server.storage.update m state).1.mapError ApiFault.ofStore).mapError RpcFault.ofApi,
            (server.storage.update m state).2)) ∧
      (m.value = .gauge .negativeZero → server.admitCall arrived =
        if Mac.digest m.toJson key = Mac.digest (Metric.toJson ⟨m.id, .gauge .zero⟩) key then
        .ok ⟨m.id, .gauge .zero⟩
        else .error (.unauthenticated "hashsha256 does not match")) := by
  refine ⟨_, Call.arrived_sent within, ?_, ?_⟩
  · intro other
    have admitted := admitCall_of_ne signed shared named finite other
    have verified := (verifyCall_call signed shared m).trans (if_pos rfl)
    exact ⟨verified, admitted, serveCall_of_admitted admitted⟩
  · intro zero
    have admitted := admitCall_call signed shared named finite
    rw [zero] at admitted
    exact admitted

/-- The least counter under an id that is not ASCII is admitted as it is. -/
theorem signed_calls_admitted_at_least :
    let sender : RpcSender := ⟨{ key := some [0x6b] }⟩
    let server := Server.setUp Memory.storage { key := some [0x6b] } 1024 1000
    let m : Metric := ⟨"é", .counter Int64.minValue⟩
    ∃ arrived, (sender.call m).sent.arrived = some arrived ∧ server.admitCall arrived = .ok m := by
  intro sender server m
  have other : m.value ≠ .gauge .negativeZero := nofun
  obtain ⟨arrived, there, admitted, -⟩ :=
    signed_calls_admitted sender server rfl rfl (by decide : m.id ≠ "") rfl
      (by decide +kernel)
  exact ⟨arrived, there, (admitted other).2.1⟩

/-- Negative zero is refused: its tag is not that of the zero which arrives. -/
theorem negative_zero_refused :
    let sender : RpcSender := ⟨{ key := some [0x6b] }⟩
    let server := Server.setUp Memory.storage { key := some [0x6b] } 1024 1000
    let m : Metric := ⟨"a", .gauge .negativeZero⟩
    m.id ≠ "" ∧ m.value.isFinite ∧ (sender.call m).sent.message.length ≤ Message.limit ∧
      ∃ arrived, (sender.call m).sent.arrived = some arrived ∧ arrived.value = .gauge .zero ∧
        server.verifyCall arrived ⟨arrived.name, arrived.value⟩ =
          .error (.unauthenticated "hashsha256 does not match") ∧
        server.admitCall arrived = .error (.unauthenticated "hashsha256 does not match") := by
  intro sender server m
  have within : (sender.call m).sent.message.length ≤ Message.limit := by decide +kernel
  have apart :
      Mac.digest m.toJson [0x6b] ≠ Mac.digest (Metric.toJson ⟨"a", .gauge .zero⟩) [0x6b] := by
    decide +kernel
  have verified := @verifyCall_call _ sender server _ m rfl rfl ⟨"a", .gauge .zero⟩
  have admitted := @admitCall_call _ sender server _ m rfl rfl (by decide) rfl
  exact ⟨by decide, rfl, within, _, Call.arrived_sent within, rfl, verified.trans (if_neg apart),
    admitted.trans (if_neg apart)⟩

end Agent.RpcSender
end Telemetry
