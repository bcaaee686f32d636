import Telemetry.Proofs.Gzip.Limit
import Telemetry.Proofs.Server.Responses
import Telemetry.Proofs.Server.Ways

/-!
Limits of a server for bodies. Main statement: a body that comes too long, or that holds too much,
is refused with the state left alone, and any other is answered as its plain form would be by a
server without limits. But the limit for bodies as they come holds for the plain form too, even
where the options have a larger limit for what is inflated.
-/
namespace Telemetry

def Route.readsBody : Route → Bool
  | update | updates | value => true
  | index | ping | updatePath .. | valuePath .. => false

def Request.PostsJson (request : Request) : Prop :=
  request.method = "POST" ∧ ∃ route, Route.ofPath? request.path = some route ∧
    route.readsBody = true

def describesBody (name : String) : Bool := name == "content-encoding" || name == "content-length"

/-- The request that brings a plain body, without the headers that described the one in its place.
-/
def Request.bringing (request : Request) (plain : Bytes) : Request :=
  { request with
    headers := request.headers.filter fun header => !describesBody (Text.lowercase header.1)
    body := plain }

namespace Server

variable {σ : Type} {server : Server σ} {request : Request} {plain : Bytes} {limit most : Nat}

/-- The server as it is without a limit for what is inflated, and with another one for bodies. -/
def unlimited (server : Server σ) (most : Nat) : Server σ :=
  { server with opening := { server.opening with limit := none }, maxBody := most }

/-- The plain form of the body that a request brings: the body itself, or what it holds if that is
within the limit. The limit must leave room for one byte more to be asked for. -/
inductive Carries (limit : Nat) (request : Request) : Bytes → Prop
  | uncoded (coding : isGzipped request = false ∨ request.body = []) :
      Carries limit request request.body
  | gzipped {plain : Bytes} (coding : isGzipped request = true)
      (unpacked : Gzip.unpack request.body = .ok plain) (fits : plain.length ≤ limit)
      (counts : limit < 0xffffffffffffffff) : Carries limit request plain

def Trusts (server : Server σ) (request : Request) (plain : Bytes) : Prop :=
  ∀ key, server.opening.key = some key →
    ∃ tag, request.header? "hashsha256" = some tag ∧ Mac.verify plain tag key = true

/-! ### Headers -/

theorem headerValues_bringing {name : String} (kept : describesBody name = false)
    (request : Request) (plain : Bytes) : (request.bringing plain).headerValues name =
      request.headerValues name := by
  have same : ∀ header : String × Bytes,
      ((Text.lowercase header.1 == name) && !describesBody (Text.lowercase header.1)) =
      (Text.lowercase header.1 == name) := by
    intro header
    by_cases here : Text.lowercase header.1 = name
    · rw [here, kept]
      simp
    · simp [here]
  simp only [Request.headerValues, Request.bringing, List.filter_filter, same]

theorem isGzipped_bringing (request : Request) (plain : Bytes) :
    isGzipped (request.bringing plain) = false := by
  have gone : (request.bringing plain).headerValues "content-encoding" = [] := by
    simp only [Request.headerValues, Request.bringing, List.filter_filter, List.map_eq_nil_iff,
      List.filter_eq_nil_iff]
    intro header inside
    by_cases here : Text.lowercase header.1 = "content-encoding"
    · simp [here, describesBody]
    · simp [here]
  rw [isGzipped, Request.header?, gone]

theorem tag_bringing (request : Request) (plain : Bytes) :
    (request.bringing plain).header? "hashsha256" = request.header? "hashsha256" := by
  rw [Request.header?, headerValues_bringing (by decide), Request.header?]

theorem finish_bringing (request : Request) (plain : Bytes) (allow : Option String)
    (response : Response) :
    finish (request.bringing plain) allow response = finish request allow response := by
  have codings : acceptedCodings (request.bringing plain) = acceptedCodings request := by
    rw [acceptedCodings, headerValues_bringing (by decide), acceptedCodings]
  have prefers : prefersGzip (request.bringing plain) = prefersGzip request := by
    rw [prefersGzip, codings, prefersGzip]
  have method : (request.bringing plain).method = request.method := rfl
  unfold finish compress
  rw [prefers, method]

/-! ### Opening -/

theorem authenticate_of_trusts (trusts : server.Trusts request plain) :
    server.opening.authenticate (request.header? "hashsha256") plain = .ok plain := by
  cases keyed : server.opening.key with
  | none => rw [Envelope.Opening.authenticate, keyed]
  | some key => exact (authenticate_eq_ok_iff keyed).2 ⟨rfl, trusts key keyed⟩

theorem openPayload_eq_bind (unpaired : server.opening.privateKey = none)
    (short : request.body.length ≤ server.maxBody) :
    server.openPayload request =
      (server.opening.inflate (isGzipped request) request.body >>=
        server.opening.authenticate (request.header? "hashsha256")).mapError payloadRefusal := by
  have untouched : server.opening.decipher request.body = .ok request.body := by
    rw [Envelope.Opening.decipher, unpaired]
  rw [openPayload, if_neg (Nat.not_lt.2 short), Envelope.Opening.unseal, untouched, ok_bind]

theorem inflate_of_carries {opening : Envelope.Opening} (limited : opening.limit = some limit)
    (carries : Carries limit request plain) :
    opening.inflate (isGzipped request) request.body = .ok plain := by
  cases carries with
  | uncoded coding =>
    rw [Envelope.Opening.inflate]
    rcases coding with uncoded | empty
    · simp [uncoded]
    · simp [empty]
  | gzipped coding unpacked fits counts =>
    have nonempty := List.isEmpty_eq_false_iff.2 (Gzip.ne_nil_of_unpack unpacked)
    simp only [Envelope.Opening.inflate, coding, nonempty, limited,
      Gzip.unpackWithin_of_unpack unpacked fits counts, Bool.not_false, Bool.and_self, if_true,
      mapError_ok]

theorem openPayload_of_carries (unpaired : server.opening.privateKey = none)
    (limited : server.opening.limit = some limit) (short : request.body.length ≤ server.maxBody)
    (carries : Carries limit request plain) (trusts : server.Trusts request plain) :
    server.openPayload request = .ok plain := by
  rw [openPayload_eq_bind unpaired short, inflate_of_carries limited carries, ok_bind,
    authenticate_of_trusts trusts, mapError_ok]

theorem openPayload_bringing (unpaired : server.opening.privateKey = none)
    (short : plain.length ≤ most) (trusts : server.Trusts request plain) :
    (server.unlimited most).openPayload (request.bringing plain) = .ok plain := by
  have authenticated := authenticate_of_trusts trusts
  rw [← tag_bringing request plain] at authenticated
  rw [@openPayload_eq_bind σ (server.unlimited most) (request.bringing plain) unpaired short,
    isGzipped_bringing]
  change (server.opening.authenticate _ plain).mapError payloadRefusal = _
  rw [authenticated, mapError_ok]

theorem openPayload_of_exceeds (unpaired : server.opening.privateKey = none)
    (limited : server.opening.limit = some limit) (short : request.body.length ≤ server.maxBody)
    (coding : isGzipped request = true) (exceeds : limit < Gzip.inflatedLength request.body)
    (counts : limit < 0xffffffffffffffff) :
    server.openPayload request = .error (Response.text 413 "decompressed payload too large") := by
  have nonempty : request.body ≠ [] := by
    intro empty
    rw [empty] at exceeds
    exact Nat.not_lt_zero limit exceeds
  have inflated : server.opening.inflate (isGzipped request) request.body =
      .error (.inflatedTooLarge limit) := by
    simp only [Envelope.Opening.inflate, coding, List.isEmpty_eq_false_iff.2 nonempty, limited,
      Gzip.unpackWithin_of_exceeds exceeds counts, Bool.not_false, Bool.and_self, if_true,
      mapError_error]
    rfl
  rw [openPayload_eq_bind unpaired short, inflated]
  rfl

/-! ### Answering -/

theorem accepts_of_readsBody {route : Route} (reads : route.readsBody = true) :
    route.accepts "POST" = true := by
  cases route with
  | update | updates | value => rfl
  | index | ping | updatePath | valuePath => cases reads

theorem allowedInstead_of_postsJson (posts : request.PostsJson) :
    allowedInstead request (Route.ofPath? request.path) = none := by
  obtain ⟨post, route, routed, reads⟩ := posts
  simp only [routed, allowedInstead, post, accepts_of_readsBody reads, if_true]

theorem respond_of_refused (posts : request.PostsJson) {status : Nat} {message : String}
    (refused : server.openPayload request = .error (Response.text status message))
    (short : (Bytes.ofText message).length < 32) (state : σ) :
    server.respond request state = (Response.text status message, state) := by
  have noHead : request.method ≠ "HEAD" := by
    rw [posts.1]
    decide
  have shortBody : (Response.text status message).body.length < 32 := short
  rw [respond_eq_finish, allowedInstead_of_postsJson posts, receive, if_pos posts.1, refused,
    finish, if_neg noHead, compress, if_pos shortBody]
  rfl

theorem serve_unlimited (fits : plain.length ≤ server.maxBody) (enough : plain.length ≤ most)
    (route : Route) (state : σ) : (server.unlimited most).serve route plain state =
      server.serve route plain state := by
  have within : server.withinLimit plain = .ok () := if_neg (Nat.not_lt.2 fits)
  have withinMost : (server.unlimited most).withinLimit plain = .ok () :=
    if_neg (Nat.not_lt.2 enough)
  unfold serve
  rw [within, withinMost]
  cases route <;> rfl

theorem answer_unlimited (fits : plain.length ≤ server.maxBody) (enough : plain.length ≤ most)
    (method : String) (route : Option Route) (state : σ) :
    (server.unlimited most).answer method route plain state =
      server.answer method route plain state := by
  unfold answer
  simp only [serve_unlimited fits enough]
  rfl

theorem answer_of_long (posts : request.PostsJson) (long : server.maxBody < plain.length)
    (state : σ) :
    server.answer request.method (Route.ofPath? request.path) plain state =
      (server.signResponse
        (Response.text 413 "Failed to buffer the request body: length limit exceeded"), state) := by
  obtain ⟨post, route, routed, reads⟩ := posts
  have exceeded : server.withinLimit plain =
      .error (Response.text 413 "Failed to buffer the request body: length limit exceeded") :=
        if_pos long
  have served : server.serve route plain state =
      (.ok (Response.text 413 "Failed to buffer the request body: length limit exceeded"),
        state) := by
    cases route with
    | update | updates | value => simp only [serve, exceeded]
    | index | ping | updatePath | valuePath => cases reads
  simp only [answer, routed, post, accepts_of_readsBody reads, served, if_true]

/-! ### Limits -/

/-- How a server treats the JSON that is posted to it under its limit for bodies and another one for
what is inflated. Bodies that are too long or hold too much are refused, and the state is left
alone. Of any other the plain form is opened, and unless that is longer than a body may be, it is
answered as if there were no limits. -/
structure AppliesLimits (server : Server σ) (limit : Nat) : Prop where
  tooLong : ∀ (request : Request) (state : σ), request.PostsJson →
    server.maxBody < request.body.length →
    server.respond request state = (Response.text 400 "unreadable request body", state)
  holdsTooMuch : ∀ (request : Request) (state : σ), request.PostsJson →
    request.body.length ≤ server.maxBody →
    isGzipped request = true → limit < Gzip.inflatedLength request.body →
    limit < 0xffffffffffffffff →
    server.respond request state = (Response.text 413 "decompressed payload too large", state)
  opened : ∀ (request : Request) (plain : Bytes), request.body.length ≤ server.maxBody →
    Carries limit request plain → server.Trusts request plain →
    server.openPayload request = .ok plain
  answered : ∀ (request : Request) (plain : Bytes) (state : σ), request.PostsJson →
    request.body.length ≤ server.maxBody → Carries limit request plain →
    server.Trusts request plain →
    plain.length ≤ server.maxBody →
    ∀ most, plain.length ≤ most →
      server.respond request state = (server.unlimited most).respond (request.bringing plain) state
  plainTooLong : ∀ (request : Request) (plain : Bytes) (state : σ), request.PostsJson →
    request.body.length ≤ server.maxBody → Carries limit request plain →
    server.Trusts request plain →
    server.maxBody < plain.length →
    (server.respond request state).1.status = 413 ∧ (server.respond request state).2 = state

theorem respond_eq_unlimited (unpaired : server.opening.privateKey = none)
    (posts : request.PostsJson) (opened : server.openPayload request = .ok plain)
    (trusts : server.Trusts request plain) (fits : plain.length ≤ server.maxBody)
    (enough : plain.length ≤ most) (state : σ) :
    server.respond request state =
      (server.unlimited most).respond (request.bringing plain) state := by
  have post : (request.bringing plain).method = "POST" := posts.1
  have path : (request.bringing plain).path = request.path := rfl
  have allowed : allowedInstead (request.bringing plain) (Route.ofPath? request.path) =
      allowedInstead request (Route.ofPath? request.path) := by
    simp only [allowedInstead, post, posts.1]
  rw [respond_eq_finish, respond_eq_finish, path, allowed, finish_bringing, receive, receive,
    if_pos posts.1, if_pos post, opened, openPayload_bringing unpaired enough trusts, post, posts.1]
  simp only [answer_unlimited fits enough]

theorem appliesLimits (unpaired : server.opening.privateKey = none)
    (limited : server.opening.limit = some limit) :
    server.AppliesLimits limit where
  tooLong := by
    intro request state posts long
    exact respond_of_refused posts (if_pos long) (by decide +kernel) state
  holdsTooMuch := by
    intro request state posts short coding exceeds counts
    have refused := openPayload_of_exceeds unpaired limited short coding exceeds counts
    exact respond_of_refused posts refused (by decide +kernel) state
  opened := fun _ _ short carries trusts =>
    openPayload_of_carries unpaired limited short carries trusts
  answered := by
    intro request plain state posts short carries trusts fits most enough
    have opened := openPayload_of_carries unpaired limited short carries trusts
    exact respond_eq_unlimited unpaired posts opened trusts fits enough state
  plainTooLong := by
    intro request plain state posts short carries trusts long
    have opened := openPayload_of_carries unpaired limited short carries trusts
    rw [status_respond, respond_eq_finish, receive, if_pos posts.1, opened]
    simp only [answer_of_long posts long]
    exact ⟨rfl, trivial⟩

def paddedList (blanks : Nat) : Bytes := Bytes.ofAscii ('[' :: (List.replicate blanks ' ' ++ [']']))

def postPacked (body : Bytes) :
    Request := post [("Content-Encoding", Bytes.ofText "gzip")] "/updates/" body

theorem postsJson_postPacked (body : Bytes) : (postPacked body).PostsJson :=
  ⟨rfl, .updates, routed_post (by decide) _ body, rfl⟩

theorem isGzipped_postPacked (body : Bytes) : isGzipped (postPacked body) = true := by
  have coding : isGzipped (postPacked body) = isGzipped (postPacked []) := rfl
  rw [coding]
  decide +kernel

/-- A server without a private key applies its limit for bodies, and the limit of its options for
what is inflated or, where they have none, the same one. -/
theorem limits_apply (storage : Storage σ) (opening : Envelope.Opening)
    (unpaired : opening.privateKey = none) (maxBody timeout writeTime : Nat) :
    AppliesLimits { setUp storage opening maxBody timeout with writeTime := writeTime }
      (opening.limit.getD maxBody) :=
  appliesLimits unpaired rfl

/-- With a limit of eight bytes for what is inflated, a list of two comes through and one of ten
does not. -/
theorem limits_apply_to_lists :
    let server :
    Server Memory := { setUp Memory.storage { limit := some 8 } 1024 1000 with writeTime := 0 }
    server.respond (postPacked (Gzip.pack (paddedList 8))) {} =
        (Response.text 413 "decompressed payload too large", {}) ∧
      server.respond (postPacked (Gzip.pack (paddedList 0))) {} =
        (server.unlimited 2).respond
          ((postPacked (Gzip.pack (paddedList 0))).bringing (paddedList 0)) {} := by
  intro server
  have applies : server.AppliesLimits 8 :=
    limits_apply Memory.storage { limit := some 8 } rfl 1024 1000 0
  constructor
  · apply applies.holdsTooMuch _ _ (postsJson_postPacked _) (by decide +kernel)
      (isGzipped_postPacked _) _ (by decide)
    rw [show (postPacked (Gzip.pack (paddedList 8))).body = Gzip.pack (paddedList 8) from rfl,
      Gzip.inflatedLength_of_unpack (Gzip.unpack_pack _)]
    decide +kernel
  · have carries : Carries 8 (postPacked (Gzip.pack (paddedList 0))) (paddedList 0) :=
      .gzipped (isGzipped_postPacked _) (Gzip.unpack_pack _) (by decide +kernel) (by decide)
    exact applies.answered _ _ _ (postsJson_postPacked _) (by decide +kernel) carries nofun
      (by decide +kernel) 2
      (by decide +kernel)

/-- Twenty-five bytes hold a list of sixty-two. Under a limit of forty for bodies it is refused,
whatever the limit for what is inflated. -/
theorem plain_form_is_limited :
    let server : Server Memory := setUp Memory.storage { limit := some 64 } 40 1000
    ¬ ∀ (request : Request) (plain : Bytes), request.PostsJson →
      request.body.length ≤ server.maxBody →
      Carries 64 request plain → server.Trusts request plain →
      server.respond request {} =
        (server.unlimited plain.length).respond (request.bringing plain) {} := by
  intro server unlimited
  let packed : Bytes :=
    [0x1f, 0x8b, 0x08, 0, 0, 0, 0, 0, 0, 0xff, 0x8b, 0x56, 0xa0, 0x00, 0xc4, 0x02, 0x00, 0x85, 0xf5,
      0x55, 0x2a, 0x3e, 0, 0, 0]
  have unpacked : Gzip.unpack packed = .ok (paddedList 60) :=
    toOption_eq_some_iff.1 (by decide +kernel)
  have carries : Carries 64 (postPacked packed) (paddedList 60) :=
    .gzipped (isGzipped_postPacked packed) unpacked (by decide +kernel) (by decide)
  have same := unlimited (postPacked packed) (paddedList 60) (postsJson_postPacked packed)
    (by decide +kernel) carries
    nofun
  have refused : (server.respond (postPacked packed) {}).1.status = 413 := by decide +kernel
  have answered : ((server.unlimited (paddedList 60).length).respond
      ((postPacked packed).bringing (paddedList 60)) {}).1.status = 200 := by decide +kernel
  rw [same, answered] at refused
  cases refused

end Server
end Telemetry
