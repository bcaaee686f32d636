import Telemetry.Proofs.Gzip.Pack
import Telemetry.Proofs.Server.Signed

/-!
Signatures of responses. Main statement: a server with a key signs whatever it answers to a request
that it has let in, over the body before it is compressed or left out, and changes nothing else by
that; what it answers without letting a request in is not signed, and a server without a key signs
nothing.
-/
namespace Telemetry

/-- The body that a response brings to a client, who unpacks it if it is coded. -/
def Response.Brings (response : Response) (body : Bytes) : Prop :=
  if response.contentEncoding = some "gzip" then Gzip.unpack response.body = .ok body
  else response.body = body

theorem Response.brings_body {response : Response} (uncoded : response.contentEncoding = none) :
    response.Brings response.body := by
  have plain : response.contentEncoding ≠ some "gzip" := by
    rw [uncoded]
    exact nofun
  rw [Response.Brings, if_neg plain]

def Request.asGet (request : Request) : Request := { request with method := "GET" }

theorem Request.path_asGet (request : Request) : request.asGet.path = request.path := rfl

namespace Server

variable {σ : Type} {server : Server σ} {request : Request} {response : Response}
  {key plain : Bytes}

/-! ### Finishing -/

/-- What becomes of a response behind the routes: it names the methods that the path takes instead,
and it is compressed, and left without its body in answer to `HEAD`. -/
def finish (request : Request) (allow : Option String) (response : Response) : Response :=
  if request.method = "HEAD" then
    { compress request { response with allow := allow } with body := [] }
  else compress request { response with allow := allow }

theorem respond_eq_finish (server : Server σ) (request : Request) (state : σ) :
    server.respond request state =
      (finish request (allowedInstead request (Route.ofPath? request.path))
          (server.receive request (Route.ofPath? request.path) state).1,
        (server.receive request (Route.ofPath? request.path) state).2) := rfl

theorem compress_signed (request : Request) (response : Response) (tag : Option String) :
    compress request { response with signature := tag } =
      { compress request response with signature := tag } := by
  unfold compress
  by_cases short : response.body.length < 32
  · simp only [if_pos short]
  · simp only [if_neg short]
    split <;> rfl

theorem signature_compress (request : Request) (response : Response) :
    (compress request response).signature = response.signature := by
  unfold compress
  split
  · rfl
  · dsimp only
    split <;> rfl

theorem finish_signed (request : Request) (allow : Option String) (response : Response)
    (tag : Option String) :
    finish request allow { response with signature := tag } =
      { finish request allow response with signature := tag } := by
  have stays := compress_signed request { response with allow := allow } tag
  unfold finish
  by_cases head : request.method = "HEAD"
  · rw [if_pos head, if_pos head, stays]
  · rw [if_neg head, if_neg head, stays]

theorem signature_finish (request : Request) (allow : Option String) (response : Response) :
    (finish request allow response).signature = response.signature := by
  have stays := signature_compress request { response with allow := allow }
  unfold finish
  split <;> exact stays

theorem brings_compress (uncoded : response.contentEncoding = none) (request : Request) :
    (compress request response).Brings response.body := by
  unfold compress
  split
  · exact Response.brings_body uncoded
  · dsimp only
    split
    · exact Gzip.unpack_pack response.body
    · exact Response.brings_body uncoded

theorem brings_finish (uncoded : response.contentEncoding = none) (kept : request.method ≠ "HEAD")
    (allow : Option String) : (finish request allow response).Brings response.body := by
  rw [finish, if_neg kept]
  exact @brings_compress { response with allow := allow } uncoded request

/-! ### Answers -/

/-- What a route answers: no response is coded, and the time runs out for a slow store alone. -/
inductive Direct (slow : Bool) : Except ApiFault Response → Prop
  | answered {response : Response} (uncoded : response.contentEncoding = none)
      (inTime : response.status ≠ 408) :
      Direct slow (.ok response)
  | failed {fault : ApiFault} (inTime : fault.status ≠ 408) : Direct slow (.error fault)
  | timedOut (late : slow = true) : Direct slow (.error .timedOut)

theorem status_ofStore (fault : StoreFault) : (ApiFault.ofStore fault).status ≠ 408 := by
  cases fault with
  | invalid reason => exact (ApiFault.isRefusal_ofInvalid reason).2.2
  | _ => simp [ApiFault.ofStore, ApiFault.status]

section Routes

variable {slow : Bool} {α : Type}

theorem Direct.done {response : Response} (uncoded : response.contentEncoding = none)
    (status : response.status = 200) :
    Direct slow (.ok response) := by
  apply Direct.answered uncoded
  rw [status]
  decide

theorem Direct.bind {x : Except ApiFault α} {f : α → Except ApiFault Response}
    (first : ∀ fault, x = .error fault → fault.status ≠ 408) (next : ∀ a, Direct slow (f a)) :
    Direct slow (x >>= f) := by
  cases x with
  | error fault => exact .failed (first fault rfl)
  | ok a => exact next a

theorem status_of_lookup {k : Key} {state : σ} {fault : ApiFault}
    (failed : server.lookup k state = .error fault) :
    fault.status ≠ 408 := by
  rw [lookup] at failed
  cases found : server.storage.get k state with
  | ok m =>
    rw [found] at failed
    cases failed
  | error missing =>
    rw [found] at failed
    cases failed
    exact status_ofStore missing

theorem direct_storedMetric (server : Server σ) (ms : List Metric) (state : σ) :
    Direct slow (server.storedMetric ms state) := by
  cases ms with
  | nil => exact .answered rfl (by decide)
  | cons m rest => exact .bind (fun _ => status_of_lookup) fun found => .done rfl rfl

theorem direct_update (server : Server σ) {parsed : Except ApiFault (List Metric)}
    (refuses : Refuses parsed) {answer : List Metric → σ → Except ApiFault Response}
    (answers : ∀ ms state, Direct server.isTooSlow (answer ms state)) (state : σ) :
    Direct server.isTooSlow (server.update parsed answer state).1 := by
  cases parsed with
  | error fault => exact .failed (refuses fault rfl).2.2
  | ok ms =>
    by_cases late : ms ≠ [] ∧ server.isTooSlow
    · have stopped : server.ingest ms state = (.error .timedOut, state) := if_pos late
      simp only [update, stopped]
      exact .timedOut late.2
    · have applied : server.ingest ms state =
          ((server.apply ms state).1.mapError ApiFault.ofStore, (server.apply ms state).2) :=
            if_neg late
      simp only [update, applied]
      cases (server.apply ms state).1 with
      | error fault => exact .failed (status_ofStore fault)
      | ok => exact answers ms _

theorem direct_reading (body : Bytes) (outcome : Except ApiFault Response × σ)
    (direct : Direct slow outcome.1) (state : σ) :
    let result : Except ApiFault Response × σ := match server.withinLimit body with
      | .error refusal => (.ok refusal, state)
      | .ok () => outcome
    Direct slow result.1 :=
  @of_reading σ server state (fun result => Direct slow result.1) body (.answered rfl (by decide))
    outcome direct

theorem direct_serve (server : Server σ) (route : Route) (body : Bytes) (state : σ) :
    Direct server.isTooSlow (server.serve route body state).1 := by
  cases route with
  | index =>
    cases listed : server.storage.all state with
    | error fault =>
      simp only [serve, listed]
      exact .failed (status_ofStore fault)
    | ok all =>
      simp only [serve, listed]
      exact .done rfl rfl
  | ping =>
    simp only [serve, pingResponse]
    split <;> exact .answered rfl (by decide)
  | updatePath kind name text =>
    exact direct_update server ((refuses_readPath kind name text).map _) (fun _ _ => .done rfl rfl)
      state
  | update =>
    have direct :=
      direct_update server ((refuses_readMetric body).map ([·])) (direct_storedMetric server) state
    exact direct_reading body _ direct state
  | updates =>
    have direct := direct_update server (refuses_readBatch body)
      (fun ms _ => @Direct.done _ (updatedCount ms) rfl rfl) state
    exact direct_reading body _ direct state
  | value =>
    refine direct_reading body (_, state) (.bind ?_ fun k => .bind ?_ fun m => ?_) state
    · exact fun fault failed => (refuses_readKey body fault failed).2.2
    · exact fun _ => status_of_lookup
    · exact .done rfl rfl
  | valuePath kind name =>
    refine .bind ?_ fun k => .bind ?_ fun m => ?_
    · exact fun fault failed => (refuses_readLookup kind name fault failed).2.2
    · exact fun _ => status_of_lookup
    · exact .done rfl rfl

end Routes

/-! ### Signing -/

def keyless (server : Server σ) :
    Server σ := { server with opening := { server.opening with key := none } }

def signed (key : Bytes) (response : Response) : Response :=
  { response with signature := some (Mac.sign response.body key) }

theorem serve_keyless (server : Server σ) (route : Route) (body : Bytes) (state : σ) :
    server.keyless.serve route body state = server.serve route body state := rfl

theorem signResponse_eq_signed (keyed : server.opening.key = some key) (response : Response) :
    server.signResponse response = signed key (server.keyless.signResponse response) := by
  rw [signResponse, keyed]
  rfl

/-- How a request that is let in is answered: by a response that is signed if there is a key, and
otherwise the same, or when the time has run out. -/
theorem answer_cases (server : Server σ) (method : String) (route : Option Route) (body : Bytes)
    (state : σ) :
    (∃ response next, response.contentEncoding = none ∧ response.status ≠ 408 ∧
      server.answer method route body state = (server.signResponse response, next) ∧
      server.keyless.answer method route body state =
        (server.keyless.signResponse response, next)) ∨
    ∃ next, server.isTooSlow = true ∧
      server.answer method route body state = ({ status := 408 }, next) := by
  unfold answer
  cases route with
  | none => exact .inl ⟨{ status := 404 }, state, rfl, by decide, rfl, rfl⟩
  | some route =>
    by_cases accepted : route.accepts method = true
    · have direct := direct_serve server route body state
      simp only [accepted, if_true, serve_keyless]
      rcases served : server.serve route body state with ⟨result, next⟩
      rw [served] at direct
      cases direct with
      | @answered response uncoded inTime => exact .inl ⟨response, next, uncoded, inTime, rfl, rfl⟩
      | timedOut late => exact .inr ⟨next, late, rfl⟩
      | @failed fault inTime =>
        cases fault with
        | timedOut => exact absurd rfl inTime
        | _ => exact .inl ⟨_, next, rfl, inTime, rfl, rfl⟩
    · simp only [accepted]
      exact .inl ⟨{ status := 405 }, state, rfl, by decide, rfl, rfl⟩

section Answers

variable (method : String) (route : Option Route) (body : Bytes) (state : σ)

theorem answer_eq_signed (keyed : server.opening.key = some key)
    (inTime : (server.answer method route body state).1.status ≠ 408) :
    server.answer method route body state =
      (signed key (server.keyless.answer method route body state).1,
        (server.keyless.answer method route body state).2) := by
  rcases answer_cases server method route body state with
    ⟨response, next, -, -, answered, without⟩ | ⟨next, -, late⟩
  · rw [answered, without, signResponse_eq_signed keyed]
  · rw [late] at inTime
    exact absurd rfl inTime

theorem signature_answer (unkeyed : server.opening.key = none) :
    (server.answer method route body state).1.signature = none := by
  rcases answer_cases server method route body state with
    ⟨response, next, -, -, answered, -⟩ | ⟨next, -, late⟩
  · rw [answered, signResponse, unkeyed]
    rfl
  · rw [late]

theorem contentEncoding_answer (server : Server σ) :
    (server.answer method route body state).1.contentEncoding = none := by
  rcases answer_cases server method route body state with
    ⟨response, next, uncoded, -, answered, -⟩ | ⟨next, -, late⟩
  · rw [answered]
    exact uncoded
  · rw [late]

theorem status_answer (timely : server.isTooSlow = false) :
    (server.answer method route body state).1.status ≠ 408 := by
  rcases answer_cases server method route body state with
    ⟨response, next, -, inTime, answered, -⟩ | ⟨next, slow, -⟩
  · rw [answered]
    exact inTime
  · rw [timely] at slow
    cases slow

end Answers

/-! ### Requests that are let in -/

/-- A request is let in unless it brings a payload that cannot be opened. -/
def Admits (server : Server σ) (request : Request) : Prop :=
  request.method = "POST" → ∃ plain, server.openPayload request = .ok plain

theorem openPayload_keyless (keyed : server.opening.key = some key)
    (opened : server.openPayload request = .ok plain) :
    server.keyless.openPayload request = .ok plain := by
  obtain ⟨fits, body, -⟩ := (openPayload_eq_ok_iff keyed).1 opened
  obtain ⟨packed, deciphered, inflated⟩ := bind_eq_ok_iff.1 body
  have unsealed : server.keyless.opening.unseal request.body (isGzipped request)
      (request.header? "hashsha256") =
      .ok plain := by
    rw [Envelope.Opening.unseal]
    change (server.opening.decipher request.body >>= _) = _
    rw [deciphered, ok_bind]
    change (server.opening.inflate (isGzipped request) packed >>= _) = _
    rw [inflated]
    rfl
  have short : ¬ server.keyless.maxBody < request.body.length := Nat.not_lt.2 fits
  rw [openPayload, if_neg short, unsealed, mapError_ok]

theorem receive_of_admits (keyed : server.opening.key = some key)
    (admitted : server.Admits request) :
    ∃ body, ∀ route state,
      server.receive request route state = server.answer request.method route body state ∧
      server.keyless.receive request route state =
        server.keyless.answer request.method route body state := by
  by_cases post : request.method = "POST"
  · obtain ⟨plain, opened⟩ := admitted post
    refine ⟨plain, fun route state => ⟨?_, ?_⟩⟩
    · rw [receive, if_pos post, opened]
    · rw [receive, if_pos post, openPayload_keyless keyed opened]
  · exact ⟨[], fun route state => ⟨if_neg post, if_neg post⟩⟩

/-! ### Responses -/

/-- The body of the answer to a request, as it is before it is compressed or left out. -/
def answerBody (server : Server σ) (request : Request) (state : σ) : Bytes :=
  (server.receive request (Route.ofPath? request.path) state).1.body

/-- The body of the answer comes with the response; in place of one to `HEAD` it comes with that to
`GET`. -/
def Delivers (server : Server σ) (request : Request) (state : σ) : Prop :=
  if request.method = "HEAD" then
    (server.respond request state).1.body = [] ∧
      (server.respond request.asGet state).1.Brings (server.answerBody request state)
  else (server.respond request state).1.Brings (server.answerBody request state)

/-- A server signs its responses: to each request that it lets in it answers what it would without
the key, and the tag of the body; what it answers to others has no tag; and a client can verify each
success of an update. -/
structure SignsResponses (server : Server σ) (key : Bytes) : Prop where
  admitted : ∀ (request : Request) (state : σ), server.Admits request →
    (server.respond request state).1.status ≠ 408 →
    server.respond request state =
      ({ (server.keyless.respond request state).1 with
          signature := some (Mac.sign (server.answerBody request state) key) },
        (server.keyless.respond request state).2)
  refused : ∀ (request : Request) (state : σ), ¬ server.Admits request →
    (server.respond request state).1.signature = none
  acknowledged : ∀ (request : Request) (state : σ), request.isUpdate = true →
    (server.respond request state).1.status = 200 →
    ∃ body tag, (server.respond request state).1.Brings body ∧
      (server.respond request state).1.signature = some tag ∧ Mac.verify body tag key = true

theorem contentEncoding_receive (server : Server σ) (request : Request) (route : Option Route)
    (state : σ) :
    (server.receive request route state).1.contentEncoding = none := by
  unfold receive
  split
  · cases opened : server.openPayload request with
    | ok plain => exact contentEncoding_answer request.method route plain state server
    | error refusal =>
      obtain ⟨status, message, rfl, -⟩ := refusal_eq_text opened
      rfl
  · exact contentEncoding_answer request.method route [] state server

theorem signature_receive (unkeyed : server.opening.key = none) (request : Request)
    (route : Option Route) (state : σ) :
    (server.receive request route state).1.signature = none := by
  unfold receive
  split
  · cases opened : server.openPayload request with
    | ok plain => exact signature_answer request.method route plain state unkeyed
    | error refusal =>
      obtain ⟨status, message, rfl, -⟩ := refusal_eq_text opened
      rfl
  · exact signature_answer request.method route [] state unkeyed

theorem receive_asGet (server : Server σ) (head : request.method = "HEAD") (route : Option Route)
    (state : σ) :
    server.receive request.asGet route state = server.receive request route state := by
  have getNoPost : request.asGet.method ≠ "POST" := (by decide : "GET" ≠ "POST")
  have noPost : request.method ≠ "POST" := by
    rw [head]
    decide
  have same : ∀ route : Route, route.accepts "GET" = route.accepts "HEAD" := by
    intro route
    cases route <;> rfl
  have get : request.asGet.method = "GET" := rfl
  rw [receive, if_neg getNoPost, receive, if_neg noPost, get, head]
  cases route with
  | none => rfl
  | some route => simp only [answer, same]

theorem delivers (server : Server σ) (request : Request) (state : σ) :
    server.Delivers request state := by
  have uncoded := contentEncoding_receive server request (Route.ofPath? request.path) state
  rw [Delivers]
  by_cases head : request.method = "HEAD"
  · have kept : request.asGet.method ≠ "HEAD" := (by decide : "GET" ≠ "HEAD")
    rw [if_pos head]
    constructor
    · rw [respond_eq_finish, finish, if_pos head]
    · rw [respond_eq_finish, request.path_asGet, receive_asGet server head, answerBody]
      exact brings_finish uncoded kept _
  · rw [if_neg head, respond_eq_finish, answerBody]
    exact brings_finish uncoded head _

theorem status_receive (timely : server.isTooSlow = false) (request : Request)
    (route : Option Route) (state : σ) :
    (server.receive request route state).1.status ≠ 408 := by
  unfold receive
  split
  · cases opened : server.openPayload request with
    | ok plain => exact status_answer request.method route plain state timely
    | error refusal =>
      obtain ⟨status, message, rfl, rfl | rfl⟩ := refusal_eq_text opened
      · exact (by decide : (400 : Nat) ≠ 408)
      · exact (by decide : (413 : Nat) ≠ 408)
  · exact status_answer request.method route [] state timely

theorem respond_eq_signed (keyed : server.opening.key = some key) (admitted : server.Admits request)
    {state : σ} (inTime : (server.respond request state).1.status ≠ 408) :
    server.respond request state =
      ({ (server.keyless.respond request state).1 with
          signature := some (Mac.sign (server.answerBody request state) key) },
        (server.keyless.respond request state).2) := by
  obtain ⟨body, answers⟩ := receive_of_admits keyed admitted
  obtain ⟨received, without⟩ := answers (Route.ofPath? request.path) state
  rw [status_respond, received] at inTime
  have signs := answer_eq_signed _ _ _ _ keyed inTime
  rw [← received, ← without] at signs
  rw [respond_eq_finish, respond_eq_finish, answerBody, signs]
  exact Prod.ext (finish_signed request _ _ _) rfl

theorem signature_of_closed (closed : ¬ server.Admits request) (state : σ) :
    (server.respond request state).1.signature = none := by
  have post : request.method = "POST" := by
    by_cases post : request.method = "POST"
    · exact post
    · exact absurd (fun is => absurd is post) closed
  rw [respond_eq_finish, signature_finish, receive, if_pos post]
  cases opened : server.openPayload request with
  | ok plain => exact absurd (fun _ => ⟨plain, opened⟩) closed
  | error refusal =>
    obtain ⟨status, message, rfl, -⟩ := refusal_eq_text opened
    rfl

theorem admits_of_success {state : σ} (success : (server.respond request state).1.status = 200) :
    server.Admits request := by
  intro post
  cases opened : server.openPayload request with
  | ok plain => exact ⟨plain, rfl⟩
  | error refusal =>
    obtain ⟨response, status, responds⟩ := respond_of_closed post opened
    have refused := Ending.ofStatus_eq_refused_iff.1 (refusal_of_openPayload opened)
    rw [responds, status] at success
    omega

theorem signsResponses (keyed : server.opening.key = some key) : server.SignsResponses key where
  admitted := fun _ _ admitted inTime => respond_eq_signed keyed admitted inTime
  refused := fun _ state closed => signature_of_closed closed state
  acknowledged := by
    intro request state update success
    have inTime : (server.respond request state).1.status ≠ 408 := by
      rw [success]
      decide
    have kept : request.method ≠ "HEAD" := by
      rw [Request.post_of_isUpdate update]
      decide
    have brings := delivers server request state
    rw [Delivers, if_neg kept] at brings
    refine ⟨_, _, brings, ?_, Mac.verify_sign _ key⟩
    rw [respond_eq_signed keyed (admits_of_success success) inTime]

theorem signature_respond (unkeyed : server.opening.key = none) (request : Request) (state : σ) :
    (server.respond request state).1.signature = none := by
  rw [respond_eq_finish, signature_finish]
  exact signature_receive unkeyed request _ state

/-- The body of each answer reaches the client, who is told that the time has run out by a slow
server alone. A server with a key signs that body for every request that it lets in, and for no
other; one without a key never does. -/
theorem responses_are_signed (server : Server σ) :
    (∀ request state, server.Delivers request state) ∧
    (server.isTooSlow = false → ∀ request state, (server.respond request state).1.status ≠ 408) ∧
    match server.opening.key with
    | some key => server.SignsResponses key
    | none => ∀ request state, (server.respond request state).1.signature = none := by
  refine ⟨delivers server, ?_, ?_⟩
  · intro timely request state
    rw [status_respond]
    exact status_receive timely request _ state
  · cases keyed : server.opening.key with
    | some key => exact signsResponses keyed
    | none => exact signature_respond keyed

end Server
end Telemetry
