import Telemetry.Agent.Http
import Telemetry.Proofs.Http.Message
import Telemetry.Proofs.Result
import Telemetry.Server.App

namespace Telemetry

theorem Hex.visible_digitChar :
    ∀ n < 16, 0x20 ≤ (Nat.digitChar n).toNat ∧ (Nat.digitChar n).toNat < 0x7f := by
  decide

theorem Hex.visible_of_mem_encode {bytes : Bytes} {c : Char} (member : c ∈ Hex.encode bytes) :
    0x20 ≤ c.toNat ∧ c.toNat < 0x7f := by
  simp only [Hex.encode, List.mem_flatMap, List.mem_cons, List.not_mem_nil, or_false] at member
  obtain ⟨b, -, rfl | rfl⟩ := member
  · apply Hex.visible_digitChar
    have := b.toNat_lt
    omega
  · apply Hex.visible_digitChar
    omega

theorem Mac.ofHeader_sign (message key : Bytes) :
    Text.ofHeader (Bytes.ofText (Mac.sign message key)) = some (Mac.sign message key) :=
  Text.ofHeader_ofText fun _ => Hex.visible_of_mem_encode

namespace Agent.HttpSender

variable {sender : HttpSender} {url : Url} {envelope : Envelope} {segments list : List String}

/-! ### Headers -/

theorem lowercase_names : Text.lowercase "content-type" = "content-type" ∧
    Text.lowercase "content-encoding" = "content-encoding" ∧
    Text.lowercase "HashSHA256" = "hashsha256" := by
  decide

theorem headerValues_coding (url : Url) (envelope : Envelope) :
    (envelopeRequest url envelope).headerValues "content-encoding" =
      if envelope.gzip then [Bytes.ofText "gzip"] else [] := by
  obtain ⟨body, signature, gzip, encrypted⟩ := envelope
  cases gzip <;> cases signature <;>
    simp [Request.headerValues, envelopeRequest, tagHeader, lowercase_names]

theorem headerValues_tag (url : Url) (envelope : Envelope) :
    (envelopeRequest url envelope).headerValues "hashsha256" =
      (envelope.signature.map Bytes.ofText).toList := by
  obtain ⟨body, signature, gzip, encrypted⟩ := envelope
  cases gzip <;> cases signature <;>
    simp [Request.headerValues, envelopeRequest, tagHeader, lowercase_names]

theorem headerValues_accepted (url : Url) (envelope : Envelope) :
    (envelopeRequest url envelope).headerValues "accept-encoding" = [] := by
  obtain ⟨body, signature, gzip, encrypted⟩ := envelope
  cases gzip <;> cases signature <;>
    simp [Request.headerValues, envelopeRequest, tagHeader, lowercase_names]

theorem gzip_named : Text.ofHeader (Bytes.ofText "gzip") = some "gzip" ∧
    ((Text.split ',' "gzip").any fun coding =>
      String.ofList ((Text.trim coding.toList).map Char.toLower) == "gzip") = true := by
  decide

theorem isGzipped_envelopeRequest (url : Url) (envelope : Envelope) :
    Server.isGzipped (envelopeRequest url envelope) = envelope.gzip := by
  rw [Server.isGzipped, Request.header?, headerValues_coding]
  cases envelope.gzip with
  | false => rfl
  | true => simp only [if_true, gzip_named]

theorem header_tag (url : Url) {sealing : Envelope.Sealing} {plain : Bytes}
    (signed : envelope.signature = sealing.sign plain) :
    (envelopeRequest url envelope).header? "hashsha256" = envelope.signature := by
  rw [Request.header?, headerValues_tag, signed, Envelope.Sealing.sign]
  cases sealing.key with
  | none => rfl
  | some key => exact Mac.ofHeader_sign plain key

theorem prefersGzip_envelopeRequest (url : Url) (envelope : Envelope) :
    Server.prefersGzip (envelopeRequest url envelope) = false := by
  rw [Server.prefersGzip, Server.acceptedCodings, headerValues_accepted]
  rfl

/-! ### Places -/

theorem sealedRequest_eq_ok (base : sender.base.path = .segments list)
    {sealed : Except Envelope.Fault Envelope} (done : sealed = .ok envelope) (added : List String) :
    sender.sealedRequest added sealed =
      .ok ({ sender.base with
        path := .segments (added.foldl Url.appendSegment (Url.dropLastEmpty list)) },
          envelopeRequest
            { sender.base with
              path := .segments (added.foldl Url.appendSegment (Url.dropLastEmpty list)) }
            envelope) := by
  simp only [sealedRequest, done, mapError_ok, ok_bind, place, Url.extend?, base, pure_eq_ok]

theorem takeWhile_queryText (query : Option String) :
    (Url.queryText query).toList.takeWhile (fun c => c != '?' && c != '#') = [] := by
  cases query with
  | none => rfl
  | some query =>
    rw [Url.queryText, String.toList_append]
    rfl

/-- The path of a place below the root, whatever the query. -/
theorem path_below_root {name : String}
    (inside : (name.toList ++ ['/']).all (fun c => c != '?' && c != '#') = true)
    (below : url.path = .segments [name, ""]) :
    (envelopeRequest url envelope).path = String.ofList ('/' :: (name.toList ++ ['/'])) := by
  have text : (Url.pathText url.path).toList = '/' :: (name.toList ++ ['/']) := by
    simp [below, Url.pathText, String.join]
  have target : (envelopeRequest url envelope).target.toList =
      '/' :: (name.toList ++ ['/']) ++ (Url.queryText url.query).toList := by
    rw [← text, ← String.toList_append]
    rfl
  exact Request.path_eq target (List.all_eq_true.1 inside) (takeWhile_queryText url.query)

end Agent.HttpSender
end Telemetry
