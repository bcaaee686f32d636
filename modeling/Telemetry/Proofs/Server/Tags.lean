import Telemetry.Proofs.Agent.Path
import Telemetry.Proofs.Agent.Rpc
import Telemetry.Proofs.Digest.Mac
import Telemetry.Proofs.Server.Responses

/-!
Tags between the two ends. Main statement: each message has one tag under a key, which is recognised
in any letter case and with blanks around it, and as nothing else; and neither changes what becomes
of a request or a call.
-/
namespace Telemetry

def retag (name : String) (value : Bytes) (headers : List (String × Bytes)) :
    List (String × Bytes) :=
  headers.map fun header => if Text.lowercase header.1 = name then (header.1, value) else header

def Request.retagged (request : Request) (value : Bytes) : Request :=
  { request with headers := retag "hashsha256" value request.headers }

def Call.retagged (call : Call) (value : Bytes) : Call :=
  { call with metadata := retag Call.tagName value call.metadata }

/-! ### Headers with another value -/

section Headers

variable {name other : String} {value : Bytes} {request : Request} {tag text : String}

theorem filter_retag_of_ne (differ : other ≠ name) (headers : List (String × Bytes)) :
    (retag name value headers).filter (fun header => Text.lowercase header.1 == other) =
      headers.filter fun header => Text.lowercase header.1 == other := by
  induction headers with
  | nil => rfl
  | cons header rest ih =>
    rw [retag, List.map_cons, List.filter_cons, List.filter_cons, ← retag, ih]
    by_cases named : Text.lowercase header.1 = name
    · have unmarked : (Text.lowercase header.1 == other) = false := by
        rw [named]
        simpa using differ.symm
      simp only [if_pos named, unmarked, Bool.false_eq_true, if_false]
    · simp only [if_neg named]

theorem find?_retag (headers : List (String × Bytes)) :
    (retag name value headers).find? (fun header => Text.lowercase header.1 == name) =
      (headers.find? fun header => Text.lowercase header.1 == name).map fun header =>
        (header.1, value) := by
  induction headers with
  | nil => rfl
  | cons header rest ih =>
    rw [retag, List.map_cons, List.find?_cons, List.find?_cons, ← retag, ih]
    by_cases named : Text.lowercase header.1 = name
    · simp [named]
    · have unmarked : (Text.lowercase header.1 == name) = false := by simpa using named
      simp only [if_neg named, unmarked]

theorem Request.headerValues_retagged (differ : name ≠ "hashsha256") (request : Request)
    (value : Bytes) :
    (request.retagged value).headerValues name = request.headerValues name :=
  congrArg (List.map Prod.snd) (filter_retag_of_ne differ request.headers)

theorem Request.header?_eq_bind (request : Request) (name : String) :
    request.header? name =
      (request.headers.find? fun header => Text.lowercase header.1 == name).bind fun header =>
        Text.ofHeader header.2 := by
  rw [Request.header?, Request.headerValues, ← List.head?_filter]
  cases request.headers.filter fun header => Text.lowercase header.1 == name with
  | nil => rfl
  | cons header rest => rfl

theorem Request.header?_retagged (there : request.header? "hashsha256" = some tag)
    (reads : Text.ofHeader value = some text) :
    (request.retagged value).header? "hashsha256" = some text := by
  rw [header?_eq_bind, Option.bind_eq_some_iff] at there
  obtain ⟨header, found, -⟩ := there
  have first := @find?_retag "hashsha256" value request.headers
  rw [found] at first
  rw [header?_eq_bind, retagged, first]
  exact reads

end Headers

namespace Server

variable {σ : Type} {server : Server σ} {key value : Bytes} {tag text : String}

theorem callTag_retagged {call : Call} (there : callTag call = some tag)
    (reads : Text.ofHeader value = some text) :
    callTag (call.retagged value) = some text := by
  have first := @find?_retag Call.tagName value call.metadata
  unfold callTag at there ⊢
  cases found : call.metadata.find? fun entry => Text.lowercase entry.1 == Call.tagName with
  | none =>
    rw [found] at there
    cases there
  | some entry =>
    rw [found, Option.map_some] at first
    rw [Call.retagged, first]
    exact reads

/-! ### Requests and calls with another spelling -/

theorem authenticate_congr (opening : Envelope.Opening)
    (same : Mac.plainForm text = Mac.plainForm tag) (plain : Bytes) :
    opening.authenticate (some text) plain = opening.authenticate (some tag) plain := by
  unfold Envelope.Opening.authenticate
  cases opening.key with
  | none => rfl
  | some key => simp only [Mac.verify_congr same]

theorem isGzipped_retagged (request : Request) (value : Bytes) :
    isGzipped (request.retagged value) = isGzipped request := by
  rw [isGzipped, Request.header?, request.headerValues_retagged (by decide), isGzipped,
    Request.header?]

theorem prefersGzip_retagged (request : Request) (value : Bytes) :
    prefersGzip (request.retagged value) = prefersGzip request := by
  rw [prefersGzip, acceptedCodings, request.headerValues_retagged (by decide), prefersGzip,
    acceptedCodings]

theorem finish_retagged (request : Request) (value : Bytes) (allow : Option String)
    (response : Response) :
    finish (request.retagged value) allow response = finish request allow response := by
  have method : (request.retagged value).method = request.method := rfl
  unfold finish compress
  rw [prefersGzip_retagged, method]

/-- A request whose tag is spelled in another way is answered the same. -/
theorem respond_retagged {request : Request} (there : request.header? "hashsha256" = some tag)
    (reads : Text.ofHeader value = some text) (same : Mac.plainForm text = Mac.plainForm tag)
    (state : σ) :
    server.respond (request.retagged value) state = server.respond request state := by
  have body : (request.retagged value).body = request.body := rfl
  have method : (request.retagged value).method = request.method := rfl
  have path : (request.retagged value).path = request.path := rfl
  have allowed : ∀ route, allowedInstead (request.retagged value) route =
      allowedInstead request route := by
    intro route
    rfl
  have opened : server.openPayload (request.retagged value) = server.openPayload request := by
    rw [openPayload, openPayload, body, isGzipped_retagged, Request.header?_retagged there reads,
      there, Envelope.Opening.unseal, Envelope.Opening.unseal]
    simp only [authenticate_congr server.opening same]
  have received : ∀ route, server.receive (request.retagged value) route state =
      server.receive request route state := by
    intro route
    rw [receive, receive, method, opened]
  rw [respond_eq_finish, respond_eq_finish, path, received, allowed, finish_retagged]

theorem serveCall_retagged {call : Call} (there : callTag call = some tag)
    (reads : Text.ofHeader value = some text) (same : Mac.plainForm text = Mac.plainForm tag)
    (state : σ) :
    server.serveCall (call.retagged value) state = server.serveCall call state := by
  have name : (call.retagged value).name = call.name := rfl
  have brought : (call.retagged value).value = call.value := rfl
  have verified : ∀ m, server.verifyCall (call.retagged value) m = server.verifyCall call m := by
    intro m
    unfold verifyCall
    cases server.opening.key with
    | none => rfl
    | some key => simp only [callTag_retagged there reads, there, Mac.verify_congr same]
  have admitted : server.admitCall (call.retagged value) = server.admitCall call := by
    rw [admitCall_eq, admitCall_eq, name, brought, verified]
  rw [serveCall, serveCall, admitted]

/-! ### The tags that are sent -/

/-- Senders with a key put the tag of what they sign into each request and call. -/
structure SendsTags (sealing : Envelope.Sealing) (key : Bytes) : Prop where
  envelopes : ∀ (url : Url) (filler plain : Bytes) (envelope : Envelope),
    sealing.seal filler plain = .ok envelope →
    (Agent.HttpSender.envelopeRequest url envelope).header? "hashsha256" = some (Mac.sign plain key)
  paths : ∀ (sender : Agent.HttpSender) (m : Metric) (url : Url) (request : Request),
    sender.sealing = sealing →
    sender.pathRequest m = .ok (url, request) →
    request.header? "hashsha256" = some (Mac.sign [] key)
  calls : ∀ m : Metric, callTag (Agent.RpcSender.call ⟨sealing⟩ m).carried =
    some (Mac.sign m.toJson key)

theorem header_emptyRequest {sealing : Envelope.Sealing} (keyed : sealing.key = some key)
    (url : Url) :
    (Agent.HttpSender.emptyRequest url (sealing.sign [])).header? "hashsha256" =
      some (Mac.sign [] key) := by
  rw [Envelope.Sealing.sign, keyed, Option.map_some, Request.header?,
    (Agent.HttpSender.headerValues_emptyRequest url _).1]
  exact Mac.ofHeader_sign [] key

theorem sendsTags {sealing : Envelope.Sealing} (keyed : sealing.key = some key) :
    SendsTags sealing key where
  envelopes url filler plain envelope sealed := by
    have signed := (Envelope.sealPacked_eq_ok sealed).1
    rw [Agent.HttpSender.header_tag url signed, signed, Envelope.Sealing.sign, keyed]
    rfl
  paths sender m url request own made := by
    obtain ⟨place, -, returned⟩ := bind_eq_ok_iff.1 made
    obtain ⟨-, rfl⟩ := Prod.mk.inj (Except.ok.inj returned)
    rw [own]
    exact header_emptyRequest keyed place
  calls m := Agent.RpcSender.callTag_call keyed

/-! ### The tags of responses -/

theorem signature_answer_eq (keyed : server.opening.key = some key) {method : String}
    {route : Option Route} {body : Bytes} {state : σ}
    (signed : (server.answer method route body state).1.signature = some tag) :
    tag = Mac.sign (server.answer method route body state).1.body key := by
  rcases answer_cases server method route body state with
    ⟨response, next, -, -, answered, -⟩ | ⟨next, -, late⟩
  · rw [answered, signResponse, keyed] at signed
    rw [answered]
    exact (Option.some.inj signed).symm
  · rw [late] at signed
    cases signed

theorem signature_receive_eq (keyed : server.opening.key = some key) {request : Request}
    {route : Option Route} {state : σ}
    (signed : (server.receive request route state).1.signature = some tag) :
    tag = Mac.sign (server.receive request route state).1.body key := by
  by_cases post : request.method = "POST"
  · cases opened : server.openPayload request with
    | ok plain =>
      have received :
          server.receive request route state = server.answer request.method route plain state := by
        rw [receive, if_pos post, opened]
      rw [received] at signed ⊢
      exact signature_answer_eq keyed signed
    | error refusal =>
      have received : server.receive request route state = (refusal, state) := by
        rw [receive, if_pos post, opened]
      obtain ⟨status, message, rfl, -⟩ := refusal_eq_text opened
      rw [received] at signed
      cases signed
  · have received :
        server.receive request route state = server.answer request.method route [] state :=
      if_neg post
    rw [received] at signed ⊢
    exact signature_answer_eq keyed signed

theorem signature_eq (keyed : server.opening.key = some key) {request : Request} {state : σ}
    (signed : (server.respond request state).1.signature = some tag) :
    tag = Mac.sign (server.answerBody request state) key := by
  rw [respond_eq_finish, signature_finish] at signed
  exact signature_receive_eq keyed signed

/-- Whatever is signed at one end is recognised at the other by the spelling of its tag: payloads,
calls and responses. -/
structure RecognisesTags (server : Server σ) (key : Bytes) : Prop where
  payloads : ∀ (request : Request) (plain : Bytes), server.openPayload request = .ok plain ↔
    request.body.length ≤ server.maxBody ∧ server.plainBody request = .ok plain ∧
      ∃ text, request.header? "hashsha256" = some text ∧ Mac.Spells text (Mac.sign plain key)
  calls : ∀ call : Call, server.verifyCall call ⟨call.name, call.value⟩ = .ok () ↔
    ∃ text, callTag call = some text ∧
      Mac.Spells text (Mac.sign (Metric.toJson ⟨call.name, call.value⟩) key)
  responses : ∀ (request : Request) (state : σ) (tag : String),
    (server.respond request state).1.signature = some tag →
      ∀ text, Mac.verify (server.answerBody request state) text key = true ↔ Mac.Spells text tag

theorem recognisesTags (keyed : server.opening.key = some key) : server.RecognisesTags key where
  payloads request plain := by
    simp only [openPayload_eq_ok_iff keyed, Mac.verify_iff_spells]
  calls call := by
    simp only [verifyCall_eq_ok_iff keyed, VouchedCall, Mac.verify_iff_spells]
  responses request state tag signed text := by
    rw [signature_eq keyed signed]
    exact Mac.verify_iff_spells

structure IgnoresSpelling (server : Server σ) : Prop where
  requests : ∀ (request : Request) (value : Bytes) (tag text : String),
    request.header? "hashsha256" = some tag →
    Text.ofHeader value = some text → Mac.plainForm text = Mac.plainForm tag →
      ∀ state, server.respond (request.retagged value) state = server.respond request state
  calls : ∀ (call : Call) (value : Bytes) (tag text : String), callTag call = some tag →
    Text.ofHeader value = some text → Mac.plainForm text = Mac.plainForm tag →
      ∀ state, server.serveCall (call.retagged value) state = server.serveCall call state

theorem ignoresSpelling (server : Server σ) : server.IgnoresSpelling where
  requests _ _ _ _ there reads same state := respond_retagged there reads same state
  calls _ _ _ _ there reads same state := serveCall_retagged there reads same state

/-- The tag of a message is accepted in any letter case and with blanks around it, and nothing else
is: it stands for the only 32 bytes of a tag. Senders with the key put that tag into whatever they
send, a server with the key recognises it in that way, as do the clients to whom it responds, and
any spelling of a tag is answered the same. -/
theorem tags_are_recognised (message key : Bytes) :
    (∀ text, Mac.verify message text key = true ↔ Mac.plainForm text = Mac.sign message key) ∧
    (∀ text, Mac.verify message text key = true ↔ Mac.Spells text (Mac.sign message key)) ∧
    Mac.verify message (Mac.sign message key) key = true ∧
    (∃! bytes : Bytes, bytes.length = 32 ∧
      Mac.verify message (String.ofList (Hex.encode bytes)) key = true) ∧
    (∀ text, Mac.Spoilt message key (Text.trim text.toList) → Mac.verify message text key = false) ∧
    (∀ sealing : Envelope.Sealing, sealing.key = some key → SendsTags sealing key) ∧
    ∀ {σ : Type} (server : Server σ), server.IgnoresSpelling ∧
      (server.opening.key = some key → server.RecognisesTags key) := by
  refine ⟨fun _ => Mac.verify_iff_plainForm, fun _ => Mac.verify_iff_spells,
    Mac.verify_sign message key, ?_, fun _ => Mac.verify_of_spoilt, fun _ => sendsTags, ?_⟩
  · refine ⟨Mac.digest message key, ⟨Mac.length_digest message key, ?_⟩, ?_⟩
    · exact (Mac.verify_encode_iff message key _).2 rfl
    · intro bytes accepted
      exact (Mac.verify_encode_iff message key bytes).1 accepted.2
  · intro σ server
    exact ⟨ignoresSpelling server, recognisesTags⟩

end Server
end Telemetry
