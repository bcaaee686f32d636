import Telemetry.Proofs.Envelope
import Telemetry.Proofs.Metric.Wire

/-!
Metrics in envelopes. Main statement: metrics of any kind that are sealed are too long for the key,
or their JSON comes out at the other end; and it is read as exactly these metrics or, when one of
them has no name or no finite reading, not at all.
-/
namespace Telemetry.Envelope

/-- What becomes of JSON that is sealed and read at the other end. It is sealed in the form that it
is packed to, and would be in any other form that unpacks to it. -/
structure Returns {α : Type} (sealing : Sealing) (opening : Opening) (filler json : Bytes)
    (sealed : Except Fault Envelope) (read : Json.Reader α) (outcome : Except Json.Fault α) :
    Prop where
  passes : Passes sealing opening json (sealing.pack json) sealed
  passesPacked : ∀ packed, sealing.Packs json packed →
    Passes sealing opening json packed (sealing.sealPacked filler json packed)
  reads : Json.document read json = outcome

variable {sealing : Sealing} {opening : Opening}

theorem returns_of_document {α : Type} (matched : Matched sealing opening) (filler : Bytes)
    {json : Bytes} (nonempty : json ≠ []) {read : Json.Reader α} {outcome : Except Json.Fault α}
    (reads : Json.document read json = outcome) :
    Returns sealing opening filler json (sealing.seal filler json) read outcome where
  passes := by
    rw [seal_eq_sealPacked]
    exact passes_sealPacked matched nonempty (packs_pack sealing json) filler
  passesPacked := fun _ packs => passes_sealPacked matched nonempty packs filler
  reads := reads

/-- Metrics that are sealed return as they were, or not at all: lists of them, and one alone. -/
theorem metrics_return (matched : Matched sealing opening) (filler : Bytes) :
    (∀ ms, Returns sealing opening filler (Metric.listToJson ms) (sealing.sealBatch filler ms)
      (Json.list Metric.ofJson)
      (if ∀ m ∈ ms, m.id ≠ "" ∧ m.value.isFinite then .ok ms else .error .unfit)) ∧
    ∀ m, Returns sealing opening filler m.toJson (sealing.sealMetric filler m) Metric.ofJson
      (if m.id ≠ "" ∧ m.value.isFinite then .ok m else .error .unfit) := by
  constructor
  · intro ms
    have nonempty : Metric.listToJson ms ≠ [] := nofun
    exact returns_of_document matched filler nonempty (Metric.document_ofJson ms)
  · intro m
    have nonempty : m.toJson ≠ [] := nofun
    exact returns_of_document matched filler nonempty m.document_ofJson_toJson

/-- A counter returns signed, compressed and encrypted. A reading that is no number is sealed and
opened as well, and then refused. -/
theorem encrypted_metrics_return :
    let pair := Rsa.PrivateKey.mersenneKey
    let sealing : Sealing := ⟨some [0x6b], true, some pair.publicKey⟩
    let opening : Opening := ⟨some [0x6b], some pair, some 64⟩
    Matched sealing opening ∧
      (∃ envelope, sealing.sealBatch [] [⟨"a", .counter 1⟩] = .ok envelope ∧
        ∃ json, opening.unseal envelope.body envelope.gzip envelope.signature = .ok json ∧
          Json.document (Json.list Metric.ofJson) json = .ok [⟨"a", .counter 1⟩]) ∧
      ∃ envelope, sealing.sealMetric [] ⟨"a", .gauge .nan⟩ = .ok envelope ∧
        ∃ json, opening.unseal envelope.body envelope.gzip envelope.signature = .ok json ∧
          Json.document Metric.ofJson json = .error .unfit := by
  intro pair sealing opening
  have matched : Matched sealing opening := by
    refine ⟨fun _ asked => asked, rfl, ?_⟩
    intro key same
    rw [← Option.some.inj same]
    exact Rsa.PrivateKey.isGenuine_mersenneKey.undoes
  obtain ⟨lists, metrics⟩ := metrics_return matched []
  have room : ∀ plain : Bytes, plain.length ≤ 64 → opening.HasRoom plain := by
    intro plain short limit limited
    cases limited
    exact ⟨short, by decide⟩
  have fits : ∀ packed : Bytes, packed.length ≤ 81 →
      ∀ key, sealing.publicKey = some key → packed.length ≤ key.size - 11 := by
    intro packed short key encrypts
    rw [← Option.some.inj encrypts]
    have size : 81 ≤ pair.publicKey.size - 11 := by decide +kernel
    exact short.trans size
  refine ⟨matched, ?_, ?_⟩
  · have returns := lists [⟨"a", .counter 1⟩]
    obtain ⟨envelope, sealed, opened⟩ :=
      returns.passes.opens_of_fits (fits _ (by decide +kernel)) (room _ (by decide +kernel))
    exact ⟨envelope, sealed, _, opened, returns.reads⟩
  · have returns := metrics ⟨"a", .gauge .nan⟩
    obtain ⟨envelope, sealed, opened⟩ :=
      returns.passes.opens_of_fits (fits _ (by decide +kernel)) (room _ (by decide +kernel))
    exact ⟨envelope, sealed, _, opened, returns.reads⟩

end Telemetry.Envelope
