import Telemetry.Proofs.Agent.Http
import Telemetry.Proofs.Envelope
import Telemetry.Proofs.Server.Updates

/-!
From a sender to a server. Main statement: whatever the two ends have agreed on, the metrics that a
sender seals reach the store of the server, in order and as they were.
-/
namespace Telemetry.Agent.HttpSender

open Envelope (Opening Paired)

section Payload

variable {sender : HttpSender} {opening : Opening} {maxBody : Nat} {filler plain packed : Bytes}
  {envelope : Envelope}

theorem openPayload_envelopeRequest (paired : Paired sender.sealing opening)
    (unset : opening.limit = none) (counts : maxBody + 1 < 0x10000000000000000) (timeout : Nat)
    (url : Url) (nonempty : plain ≠ []) (packs : sender.sealing.Packs plain packed)
    (sealed : sender.sealing.sealPacked filler plain packed = .ok envelope)
    (bodyFits : envelope.body.length ≤ maxBody) (plainFits : plain.length ≤ maxBody) :
    (Server.setUp Memory.storage opening maxBody timeout).openPayload
      (envelopeRequest url envelope) =
      .ok plain := by
  have limited : (Server.setUp Memory.storage opening maxBody timeout).opening.limit =
      some maxBody := by
    rw [Server.setUp, unset]
    rfl
  have set : Paired sender.sealing (Server.setUp Memory.storage opening maxBody timeout).opening :=
    ⟨paired.key, paired.publicKey, paired.genuine⟩
  have short : ¬ (Server.setUp Memory.storage opening maxBody timeout).maxBody <
      (envelopeRequest url envelope).body.length := Nat.not_lt.2 bodyFits
  have room : (Server.setUp Memory.storage opening maxBody timeout).opening.HasRoom plain := by
    intro limit same
    rw [limited] at same
    cases same
    exact ⟨plainFits, by omega⟩
  have signed := (Envelope.sealPacked_eq_ok sealed).1
  rw [Server.openPayload, if_neg short, isGzipped_envelopeRequest, header_tag url signed]
  exact congrArg (Except.mapError Server.payloadRefusal)
    (Envelope.unseal_of_sealPacked set.matched nonempty packs room sealed)

end Payload

/-! ### Arrival -/

/-- JSON arrives at a place below the base: in whatever form it is packed, the request that brings
it is made and opened to the plain JSON, and if the base has no path the server takes the metrics.
-/
def Arrives (sender : HttpSender) (server : Server Memory) (place : List String)
    (filler json : Bytes) (ms : List Metric) (answers : Memory → Bytes → Prop) : Prop :=
  ∀ packed envelope, sender.sealing.Packs json packed →
    sender.sealing.sealPacked filler json packed = .ok envelope →
    envelope.body.length ≤ server.maxBody → json.length ≤ server.maxBody →
    ∃ url request, sender.sealedRequest place (.ok envelope) = .ok (url, request) ∧
      server.openPayload request = .ok json ∧
      (sender.base.path = .segments [""] → ∀ memory, server.Takes request ms answers memory)

theorem routed_updates {url : Url} (envelope : Envelope)
    (below : url.path = .segments ["updates", ""]) :
    Route.ofPath? (envelopeRequest url envelope).path = some .updates := by
  rw [path_below_root (by decide) below]
  decide

theorem routed_update {url : Url} (envelope : Envelope)
    (below : url.path = .segments ["update", ""]) :
    Route.ofPath? (envelopeRequest url envelope).path = some .update := by
  rw [path_below_root (by decide) below]
  decide

section Sent

variable {sender : HttpSender} {opening : Opening} {maxBody timeout : Nat}
  {place segments : List String}
  {json : Bytes} {ms : List Metric} {answers : Memory → Bytes → Prop}

theorem arrives_of_takes (paired : Paired sender.sealing opening) (unset : opening.limit = none)
    (counts : maxBody + 1 < 0x10000000000000000) (base : sender.base.path = .segments segments)
    (filler : Bytes) (nonempty : json ≠ [])
    (below : place.foldl Url.appendSegment (Url.dropLastEmpty [""]) = place) :
    let server := Server.setUp Memory.storage opening maxBody timeout
    (∀ (url : Url) (envelope : Envelope), url.path = .segments place → json.length ≤ maxBody →
      server.openPayload (envelopeRequest url envelope) = .ok json →
      ∀ memory, server.Takes (envelopeRequest url envelope) ms answers memory) →
    sender.Arrives server place filler json ms answers := by
  intro server takes packed envelope packs sealed bodyFits plainFits
  have opened := fun url =>
    openPayload_envelopeRequest paired unset counts timeout url nonempty packs sealed bodyFits
      plainFits
  refine ⟨_, _, sealedRequest_eq_ok base rfl place, opened _, ?_⟩
  intro root
  obtain rfl := UrlPath.segments.inj (base.symm.trans root)
  exact takes _ envelope (congrArg UrlPath.segments below) plainFits (opened _)

end Sent

/-- What a sender seals arrives in whatever form it is packed, lists at one place and metrics alone
at another; and what it sends there is in one such form. -/
theorem requests_arrive (sender : HttpSender) {opening : Opening}
    (paired : Paired sender.sealing opening) (unset : opening.limit = none) {maxBody : Nat}
    (counts : maxBody + 1 < 0x10000000000000000) (timeout : Nat) {segments : List String}
    (base : sender.base.path = .segments segments) (filler : Bytes) :
    let server := Server.setUp Memory.storage opening maxBody timeout
    (∀ ms, (∀ m ∈ ms, m.id ≠ "") → (∀ m ∈ ms, m.value.isFinite) →
      sender.Arrives server ["updates", ""] filler (Metric.listToJson ms) ms fun _ body =>
        body = Json.object [("updated", Bytes.ofAscii (Nat.toDigits 10 ms.length))]) ∧
    (∀ m, m.id ≠ "" → m.value.isFinite →
      sender.Arrives server ["update", ""] filler m.toJson [m] fun after body =>
        ∃ stored, Memory.get m.key after = .ok stored ∧ body = stored.toJson) ∧
    (∀ ms, ∃ packed, sender.sealing.Packs (Metric.listToJson ms) packed ∧
      sender.batchRequest ms filler = sender.sealedRequest ["updates", ""]
        (sender.sealing.sealPacked filler (Metric.listToJson ms) packed)) ∧
    ∀ m, ∃ packed, sender.sealing.Packs m.toJson packed ∧
      sender.jsonRequest m filler = sender.sealedRequest ["update", ""]
        (sender.sealing.sealPacked filler m.toJson packed) := by
  intro server
  refine ⟨?_, ?_, fun ms => ⟨_, Envelope.packs_pack _ _, rfl⟩, fun m =>
    ⟨_, Envelope.packs_pack _ _, rfl⟩⟩
  · intro ms named finite
    have nonempty : Metric.listToJson ms ≠ [] := nofun
    apply arrives_of_takes paired unset counts base filler nonempty (by decide)
    intro url envelope below plainFits opened memory
    exact Server.takes_listToJson rfl (prefersGzip_envelopeRequest url envelope) opened
      (routed_updates envelope below) named finite plainFits rfl rfl memory
  · intro m named finite
    have nonempty : m.toJson ≠ [] := nofun
    apply arrives_of_takes paired unset counts base filler nonempty (by decide)
    intro url envelope below plainFits opened memory
    exact Server.takes_toJson rfl (prefersGzip_envelopeRequest url envelope) opened
      (routed_update envelope below) named finite plainFits rfl rfl memory

/-- Two counters of 1 each in 60 bytes, where stored without compression they would take up 100. -/
def packedCounters : Bytes := [
  0x1f, 0x8b, 0x08, 0x00, 0x00, 0x00, 0x00, 0x00, 0x00, 0xff, 0x8b, 0xae, 0x56, 0xca, 0x4c,
  0x51, 0xb2, 0x52, 0x4a, 0x54, 0xd2, 0x51, 0x2a, 0xa9, 0x2c, 0x48, 0x05, 0x32, 0x93, 0xf3,
  0x4b, 0xf3, 0x4a, 0x52, 0x8b, 0x80, 0x02, 0x29, 0xa9, 0x39, 0x25, 0x89, 0x4a, 0x56, 0x86,
  0xb5, 0x3a, 0x44, 0xa9, 0x8a, 0x05, 0x00, 0x0a, 0x1f, 0xbe, 0xd8, 0x4d, 0x00, 0x00, 0x00]

theorem unpack_packedCounters :
    Gzip.unpack packedCounters =
      .ok (Metric.listToJson [⟨"a", .counter 1⟩, ⟨"a", .counter 1⟩]) := by
  have inflated : (Gzip.inflate (packedCounters.drop 10)).output =
      Metric.listToJson [⟨"a", .counter 1⟩, ⟨"a", .counter 1⟩] := by decide +kernel
  have ended : (Gzip.inflate (packedCounters.drop 10)).ending = .ok (packedCounters.drop 52) := by
    decide +kernel
  -- The kernel goes over the bytes in two parts, so that its stack is deep enough.
  have sum : Gzip.checksum (Metric.listToJson [⟨"a", .counter 1⟩, ⟨"a", .counter 1⟩]) =
      0xd8be1f0a := by
    rw [← List.take_append_drop 39 (Metric.listToJson _), Gzip.checksum, List.foldl_append,
      show ((Metric.listToJson [⟨"a", .counter 1⟩, ⟨"a", .counter 1⟩]).take 39).foldl _ _ =
        (0xcdd231e9 : UInt32)
        by decide +kernel]
    decide +kernel
  have header : Gzip.skipHeader packedCounters = some (packedCounters.drop 10) := by decide
  have trailer : Gzip.trailerMatches (Metric.listToJson [⟨"a", .counter 1⟩, ⟨"a", .counter 1⟩])
      (packedCounters.drop 52) = true := by
    rw [Gzip.trailerMatches, sum]
    decide +kernel
  simp only [Gzip.unpack, header, Gzip.Run.content, ended, inflated, trailer, if_true]

/-- Two counters arrive signed, compressed and encrypted, which the key is too short for as they
are. -/
theorem encrypted_request_arrives :
    let sender : HttpSender :=
      { base :=
          { scheme := "http", authority := some { host := "localhost" }, path := .segments [""] }
        sealing := ⟨some [0x6b], true, some Rsa.PrivateKey.mersenneKey.publicKey⟩
        format := .batch }
    let server :=
      Server.setUp Memory.storage ⟨some [0x6b], some Rsa.PrivateKey.mersenneKey, none⟩ 1024 1000
    let ms : List Metric := [⟨"a", .counter 1⟩, ⟨"a", .counter 1⟩]
    Rsa.PrivateKey.mersenneKey.publicKey.capacity <
      (sender.sealing.pack (Metric.listToJson ms)).length ∧
      ∃ envelope url request,
        sender.sealing.sealPacked [] (Metric.listToJson ms) packedCounters = .ok envelope ∧
        sender.sealedRequest ["updates", ""] (.ok envelope) = .ok (url, request) ∧
        server.openPayload request = .ok (Metric.listToJson ms) ∧
          (server.respond request {}).1.status = 200 := by
  intro sender server ms
  have paired : Paired sender.sealing ⟨some [0x6b], some Rsa.PrivateKey.mersenneKey, none⟩ := by
    refine ⟨rfl, rfl, ?_⟩
    intro key same
    rw [← Option.some.inj same]
    exact Rsa.PrivateKey.isGenuine_mersenneKey
  have capacity : packedCounters.length ≤ Rsa.PrivateKey.mersenneKey.publicKey.capacity := by
    decide +kernel
  have size : Rsa.PrivateKey.mersenneKey.publicKey.size ≤ 1024 := by decide +kernel
  obtain ⟨cipher, encrypted, length⟩ := Rsa.PublicKey.encrypt_of_fits capacity []
  have sealed : sender.sealing.sealPacked [] (Metric.listToJson ms) packedCounters =
      .ok ⟨cipher, sender.sealing.sign (Metric.listToJson ms), true, true⟩ := by
    simp only [Envelope.Sealing.sealPacked, sender, encrypted]
  have arrives :=
    (requests_arrive sender paired rfl (by decide : 1024 + 1 < 0x10000000000000000) 1000 rfl []).1
      ms (by decide) (by decide)
  obtain ⟨url, request, made, opened, takes⟩ :=
    arrives packedCounters _ unpack_packedCounters sealed
      (length.trans_le size) (by decide +kernel)
  have fits : ¬ Contents.Overflows (Memory.contents {}) ms := by
    have outcome := @Memory.updateEach_of_named ms (by decide) {}
    rcases outcome with ⟨fits, -⟩ | ⟨-, id, refused⟩
    · exact fits
    · cases refused
  exact ⟨by
    decide +kernel, _, url, request, sealed, made, opened, ((takes rfl {}).succeeds fits).2.1⟩

end Telemetry.Agent.HttpSender
