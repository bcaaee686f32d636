import Telemetry.Proofs.Server.Effects
import Telemetry.Proofs.Store.Linked
import Telemetry.Snapshot.Saver

/-!
Servers that share a key with their clients. Main statement: what changes the contents has come
under a tag that covers it, and a payload or a call without such a tag is refused before the store
is looked at.
-/
namespace Telemetry

namespace Ending

theorem ofStatus_eq_refused_iff {status : Nat} :
    ofStatus status = .refused ↔ 400 ≤ status ∧ status < 500 := by
  unfold ofStatus
  grind

theorem ofStatus_eq_done_iff {status : Nat} : ofStatus status = .done ↔ status = 200 := by
  unfold ofStatus
  grind

theorem ofStatus_eq_failed_iff {status : Nat} : ofStatus status = .failed ↔ status = 500 := by
  unfold ofStatus
  grind

theorem ofCall_eq_done_iff {result : Except RpcFault Unit} :
    ofCall result = .done ↔ result = .ok () := by
  rcases result with (_ | _ | _) | _ <;> simp [ofCall]

end Ending

namespace Server

variable {σ : Type} {server : Server σ} {key : Bytes}

/-- The body of a request as it was before it was compressed and encrypted. -/
def plainBody (server : Server σ) (request : Request) : Except Envelope.Fault Bytes := do
  server.opening.inflate (isGzipped request) (← server.opening.decipher request.body)

/-- The header of a request that brings a payload has the tag of its plain body. -/
structure Vouched (server : Server σ) (key : Bytes) (request : Request) (plain : Bytes) : Prop where
  post : request.method = "POST"
  opened : server.plainBody request = .ok plain
  tagged : ∃ tag, request.header? "hashsha256" = some tag ∧ Mac.verify plain tag key = true

/-- The metadata of a call have the tag of the canonical JSON of its metric. -/
def VouchedCall (key : Bytes) (call : Call) : Prop :=
  ∃ tag, callTag call = some tag ∧ Mac.verify (Metric.toJson ⟨call.name, call.value⟩) tag key = true

/-! ### Opening -/

theorem authenticate_eq_ok_iff {opening : Envelope.Opening} (keyed : opening.key = some key)
    {signature : Option String} {plain opened : Bytes} :
    opening.authenticate signature plain = .ok opened ↔
      plain = opened ∧ ∃ tag, signature = some tag ∧ Mac.verify plain tag key = true := by
  rw [Envelope.Opening.authenticate, keyed]
  obtain _ | tag := signature
  · simp
  · by_cases verified : Mac.verify plain tag key = true <;> simp [verified]

theorem openPayload_eq_ok_iff (keyed : server.opening.key = some key) {request : Request}
    {plain : Bytes} :
    server.openPayload request = .ok plain ↔ request.body.length ≤ server.maxBody ∧
      server.plainBody request = .ok plain ∧
      ∃ tag, request.header? "hashsha256" = some tag ∧ Mac.verify plain tag key = true := by
  have unsealed : ∀ signature, server.opening.unseal request.body (isGzipped request) signature =
      server.plainBody request >>= server.opening.authenticate signature := by
    intro signature
    rw [plainBody, Envelope.Opening.unseal]
    cases server.opening.decipher request.body <;> rfl
  by_cases long : server.maxBody < request.body.length
  · rw [openPayload, if_pos long]
    simp [Nat.not_le.2 long]
  · rw [openPayload, if_neg long, mapError_eq_ok_iff, unsealed, bind_eq_ok_iff]
    simp only [authenticate_eq_ok_iff keyed, Nat.not_lt.1 long, true_and]
    constructor
    · rintro ⟨opened, body, rfl, tagged⟩
      exact ⟨body, tagged⟩
    · rintro ⟨body, tagged⟩
      exact ⟨plain, body, rfl, tagged⟩

theorem verifyCall_eq_ok_iff (keyed : server.opening.key = some key) {call : Call} :
    server.verifyCall call ⟨call.name, call.value⟩ = .ok () ↔ VouchedCall key call := by
  rw [verifyCall, keyed, VouchedCall]
  obtain _ | tag := callTag call
  · simp
  · by_cases verified : Mac.verify (Metric.toJson ⟨call.name, call.value⟩) tag key = true <;>
      simp [verified]

theorem unauthenticated_of_verifyCall {call : Call} {m : Metric} {fault : RpcFault}
    (unverified : server.verifyCall call m = .error fault) :
    ∃ reason, fault = .unauthenticated reason := by
  unfold verifyCall at unverified
  split at unverified
  · cases unverified
  split at unverified
  · cases unverified
    exact ⟨_, rfl⟩
  split at unverified
  · cases unverified
  · cases unverified
    exact ⟨_, rfl⟩

/-! ### Refusals -/

/-- Payloads and calls without their tags are refused, with no look at the store. -/
structure RefusesUnsigned (server : Server σ) (key : Bytes) : Prop where
  requests : ∀ request : Request, request.method = "POST" →
    (∀ plain, ¬ server.Vouched key request plain) →
    ∃ refusal : Response, 400 ≤ refusal.status ∧ refusal.status < 500 ∧
      ∀ state, server.respond request state = (refusal, state)
  calls : ∀ call : Call, ¬ VouchedCall key call →
    ∃ fault reason, (fault = .unauthenticated reason ∨ fault = .invalidArgument reason) ∧
      ∀ state, server.serveCall call state = (.error fault, state)

theorem respond_of_closed {request : Request} (post : request.method = "POST") {refusal : Response}
    (closed : server.openPayload request = .error refusal) :
    ∃ response : Response, response.status = refusal.status ∧
      ∀ state, server.respond request state = (response, state) := by
  refine ⟨compress request
    { refusal with allow := allowedInstead request (Route.ofPath? request.path) }, ?_, ?_⟩
  · exact status_compress request _
  · intro state
    have noHead : request.method ≠ "HEAD" := by
      rw [post]
      decide
    simp only [respond, receive, if_pos post, closed, if_neg noHead]

theorem refusal_of_unvouched (keyed : server.opening.key = some key) {call : Call}
    (unvouched : ¬ VouchedCall key call) :
    ∃ fault reason, (fault = .unauthenticated reason ∨ fault = .invalidArgument reason) ∧
      server.admitCall call = .error fault := by
  rw [admitCall_eq]
  by_cases notFinite : call.value.isFinite = false
  · exact ⟨_, _, .inr rfl, if_pos notFinite⟩
  rw [if_neg notFinite]
  by_cases unnamed : call.name = ""
  · exact ⟨_, _, .inr rfl, if_pos unnamed⟩
  rw [if_neg unnamed]
  cases verified : server.verifyCall call ⟨call.name, call.value⟩ with
  | ok => exact absurd ((verifyCall_eq_ok_iff keyed).1 verified) unvouched
  | error fault =>
    obtain ⟨reason, rfl⟩ := unauthenticated_of_verifyCall verified
    exact ⟨_, reason, .inl rfl, rfl⟩

theorem refusesUnsigned (keyed : server.opening.key = some key) : server.RefusesUnsigned key where
  requests := by
    intro request post unvouched
    cases opened : server.openPayload request with
    | ok plain =>
      obtain ⟨-, body, tagged⟩ := (openPayload_eq_ok_iff keyed).1 opened
      exact absurd ⟨post, body, tagged⟩ (unvouched plain)
    | error refusal =>
      obtain ⟨response, status, responds⟩ := respond_of_closed post opened
      have refused := Ending.ofStatus_eq_refused_iff.1 (refusal_of_openPayload opened)
      rw [← status] at refused
      exact ⟨response, refused.1, refused.2, responds⟩
  calls := by
    intro call unvouched
    obtain ⟨fault, reason, kind, refused⟩ := refusal_of_unvouched keyed unvouched
    refine ⟨fault, reason, kind, ?_⟩
    intro state
    simp only [serveCall, refused]

/-! ### Changes -/

end Server

theorem Keeping.Follows.writeThrough {σ : Type} {keeping : Keeping} {storage : Storage σ}
    (follows : keeping.Follows storage) (path : String) :
    keeping.Follows (Snapshot.writeThrough storage path) where
  key_form := follows.key_form
  batch := by
    intro ms saved before named lists
    have kept := follows.batch named lists
    change keeping.Kept _ ms before
      (Snapshot.Saved.afterWrite storage path (storage.updateBatch ms) saved)
    unfold Snapshot.Saved.afterWrite Snapshot.Saved.run
    generalize storage.updateBatch ms saved.state = written at kept ⊢
    cases kept with
    | applied lists each => exact .applied lists each
    | refused blameless lists leaves => exact .refused blameless lists leaves
  single m saved := by
    have alone : storage.update m = storage.updateBatch [m] := funext (follows.single m)
    exact congrArg (Snapshot.Saved.afterWrite storage path · saved) alone
  get := follows.get

namespace Server

variable {σ : Type} {server : Server σ} {keeping : Keeping} {key : Bytes}

/-- A change of the contents by a request whose tag covers its plain body: the metrics are those
that the route reads there, or in its path, all of them on success and a front of them when the
store fails. -/
inductive SignedUpdate (server : Server σ) (keeping : Keeping) (key : Bytes) (request : Request)
    (before after : Contents) (status : Nat) : Prop
  | intro {plain : Bytes} {route : Route} {ms front : List Metric}
      (vouched : server.Vouched key request plain)
      (routed : Route.ofPath? request.path = some route) (asked : route.asked plain = some (.ok ms))
      (part : front <+: ms)
      (applied : updateEach Contents.update (front.map keeping.form) before = (.ok (), after))
      (ended : status = 200 ∧ front = ms ∨ status = 500 ∧ front ≠ ms)

inductive SignedCall (keeping : Keeping) (key : Bytes) (call : Call) (before after : Contents)
    (result : Except RpcFault Unit) : Prop
  | intro (vouched : VouchedCall key call)
      (applied : Contents.update (keeping.form ⟨call.name, call.value⟩) before = (.ok (), after))
      (ended : result = .ok ())

structure ChangesSigned (server : Server σ) (keeping : Keeping) (key : Bytes) : Prop where
  requests : ∀ (request : Request) (state : σ) (before : Contents),
    server.storage.all state = .ok before →
    ∃ after, server.storage.all (server.respond request state).2 = .ok after ∧
      (after = before ∨
        server.SignedUpdate keeping key request before after
          (server.respond request state).1.status)
  calls : ∀ (call : Call) (state : σ) (before : Contents), server.storage.all state = .ok before →
    ∃ after, server.storage.all (server.serveCall call state).2 = .ok after ∧
      (after = before ∨ SignedCall keeping key call before after (server.serveCall call state).1)

theorem changesSigned (keyed : server.opening.key = some key)
    (follows : keeping.Follows server.storage) (leaves : keeping.LeavesFront) :
    server.ChangesSigned keeping key where
  requests := by
    intro request state before lists
    obtain ⟨after, listed, effect⟩ := respond_affects follows lists request
    refine ⟨after, listed, ?_⟩
    by_cases changed : after = before
    · exact .inl changed
    obtain ⟨update, ms, front, asked, part, applied, ended⟩ :=
      effect.front_of_changed leaves changed
    obtain ⟨plain, route, opened, routed, valid⟩ := asked_eq_some asked
    obtain ⟨-, body, tagged⟩ := (openPayload_eq_ok_iff keyed).1 opened
    refine .inr ⟨⟨Request.post_of_isUpdate update, body, tagged⟩, routed, valid, part, applied, ?_⟩
    rwa [Ending.ofStatus_eq_done_iff, Ending.ofStatus_eq_failed_iff] at ended
  calls := by
    intro call state before lists
    obtain ⟨after, listed, effect⟩ := serveCall_affects follows lists call
    refine ⟨after, listed, ?_⟩
    by_cases changed : after = before
    · exact .inl changed
    have vouched : VouchedCall key call := by
      by_cases vouched : VouchedCall key call
      · exact vouched
      obtain ⟨fault, reason, -, untouched⟩ := (refusesUnsigned keyed).calls call vouched
      rw [untouched, lists] at listed
      cases listed
      exact absurd rfl changed
    obtain ⟨-, ms, front, asked, part, applied, ended⟩ := effect.front_of_changed leaves changed
    cases asked
    -- A call has one metric, so the front that was applied is all of it or nothing.
    rcases ended with ⟨done, rfl⟩ | ⟨-, less⟩
    · rw [List.map_singleton, updateEach_singleton] at applied
      exact .inr ⟨vouched, applied, Ending.ofCall_eq_done_iff.1 done⟩
    · rcases List.prefix_cons_iff.1 part with rfl | ⟨front, rfl, nothing⟩
      · cases applied
        exact absurd rfl changed
      · rw [List.prefix_nil.1 nothing] at less
        exact absurd rfl less

/-! ### Connections that are lost -/

section OverLink

variable {schedule : Retry.Schedule} {link : Database.Link}

/-- A change of the tables by a request whose tag covers its plain body. All the metrics that the
route reads there are applied, and the request succeeds unless the answer needs a series of which
every attempt to read it loses the connection. -/
inductive SignedWrite (server : Server Database) (schedule : Retry.Schedule) (link : Database.Link)
    (key : Bytes) (request : Request) (before after : Memory) (status : Nat) : Prop
  | intro {plain : Bytes} {route : Route} {ms : List Metric}
      (vouched : server.Vouched key request plain)
      (routed : Route.ofPath? request.path = some route) (asked : route.asked plain = some (.ok ms))
      (applied : updateEach Memory.update (ms.map Metric.unsignZero) before = (.ok (), after))
      (ended : status = 200 ∨ status = 500 ∧ ∃ m, ms = [m] ∧
        ∀ k ≤ schedule.length, link.read m.value.kind (k + 1) = true)

/-- What changes the tables is signed, wherever the connection is lost. -/
structure TablesSigned (server : Server Database) (schedule : Retry.Schedule) (link : Database.Link)
    (key : Bytes) : Prop where
  requests : ∀ (request : Request) (before : Memory), ∃ after,
    (server.respond request ⟨some before⟩).2 = ⟨some after⟩ ∧
      (after = before ∨ server.SignedWrite schedule link key request before after
        (server.respond request ⟨some before⟩).1.status)
  calls : ∀ (call : Call) (before : Memory), ∃ after,
    (server.serveCall call ⟨some before⟩).2 = ⟨some after⟩ ∧
      (after = before ∨ SignedCall .allOrNothing key call before.contents after.contents
        (server.serveCall call ⟨some before⟩).1)

theorem apply_settles {server : Server Database}
    (linked : server.storage = Database.overLink schedule link) (ms : List Metric)
    (tables : Memory) : Database.Settles ms tables (server.apply ms ⟨some tables⟩) := by
  match ms with
  | [] => exact .applied rfl
  | [m] =>
    rw [apply, linked]
    exact Database.updateBatch_settles schedule link [m] tables
  | m :: m' :: rest =>
    rw [apply, linked]
    · exact Database.updateBatch_settles schedule link (m :: m' :: rest) tables
    · nofun
    · nofun

theorem update_contents_of_single {m : Metric} {before after : Memory}
    (each : updateEach Memory.update ([m].map Metric.unsignZero) before = (.ok (), after)) :
    Contents.update m.unsignZero before.contents = (.ok (), after.contents) := by
  have onContents := Memory.updateEach_contents [m.unsignZero] before
  rw [List.map_singleton] at each
  rwa [each, updateEach_singleton] at onContents

/-- A metric that has just been applied is read back, unless every attempt loses the connection. -/
theorem Concludes.cases_overLink {server : Server Database}
    (linked : server.storage = Database.overLink schedule link) {ms : List Metric}
    {before next : Memory}
    (each : updateEach Memory.update (ms.map Metric.unsignZero) before = (.ok (), next))
    {status : Nat} (concludes : server.Concludes ms ⟨some next⟩ (.ofStatus status)) :
    status = 200 ∨ status = 500 ∧ ∃ m, ms = [m] ∧
      ∀ k ≤ schedule.length, link.read m.value.kind (k + 1) = true := by
  generalize ended : Ending.ofStatus status = ending at concludes
  cases concludes with
  | done => exact .inl (Ending.ofStatus_eq_done_iff.1 ended)
  | @unread m fault single failed =>
    subst single
    obtain ⟨value, there⟩ := Contents.get?_update_self (update_contents_of_single each)
    have sameKey : m.unsignZero.key = m.key :=
      congrArg (Key.mk m.id) (Value.kind_unsignZero m.value)
    rw [Memory.get?_contents, sameKey] at there
    rw [linked] at failed
    rcases Database.get_overLink_cases link there with found | ⟨lost, unavailable⟩
    · rw [found] at failed
      cases failed
    · rw [unavailable] at failed
      cases failed
      exact .inr ⟨Ending.ofStatus_eq_failed_iff.1 ended, m, rfl, lost⟩

theorem tablesSigned {server : Server Database} (keyed : server.opening.key = some key)
    (linked : server.storage = Database.overLink schedule link) :
    server.TablesSigned schedule link key where
  requests := by
    intro request before
    have touch := @touch_respond _ server request ⟨some before⟩
    generalize server.respond request ⟨some before⟩ = responded at touch ⊢
    obtain ⟨response, next⟩ := responded
    generalize ended : Ending.ofStatus response.status = ending at touch
    cases touch with
    | refused => exact ⟨before, rfl, .inl rfl⟩
    | lookedUp => exact ⟨before, rfl, .inl rfl⟩
    | @failed ms fault _ _ _ failed =>
      have settles := apply_settles linked ms before
      generalize server.apply ms ⟨some before⟩ = applied at settles failed ⊢
      cases settles with
      | applied => cases failed
      | left => exact ⟨before, rfl, .inl rfl⟩
    | @applied ms _ update asked _ taken concludes =>
      obtain ⟨plain, route, opened, routed, valid⟩ := asked_eq_some asked
      obtain ⟨-, body, tagged⟩ := (openPayload_eq_ok_iff keyed).1 opened
      have settles := apply_settles linked ms before
      generalize server.apply ms ⟨some before⟩ = applied at settles taken concludes ⊢
      cases settles with
      | left => cases taken
      | @applied after each =>
        subst ended
        have vouched : server.Vouched key request plain :=
          ⟨Request.post_of_isUpdate update, body, tagged⟩
        exact ⟨after, rfl,
          .inr ⟨vouched, routed, valid, each, concludes.cases_overLink linked each⟩⟩
  calls := by
    intro call before
    by_cases vouched : VouchedCall key call
    · rcases serveCall_cases server call ⟨some before⟩ with ⟨-, unchanged⟩ | ⟨-, served⟩
      · exact ⟨before, unchanged, .inl rfl⟩
      have settles := apply_settles linked [⟨call.name, call.value⟩] before
      rw [served]
      generalize server.apply [⟨call.name, call.value⟩] ⟨some before⟩ = applied at settles ⊢
      cases settles with
      | left => exact ⟨before, rfl, .inl rfl⟩
      | @applied after each =>
        exact ⟨after, rfl, .inr ⟨vouched, update_contents_of_single each, rfl⟩⟩
    · obtain ⟨fault, reason, -, untouched⟩ := (refusesUnsigned keyed).calls call vouched
      rw [untouched]
      exact ⟨before, rfl, .inl rfl⟩

end OverLink

/-- A server with a key refuses what is not signed with it, and its contents change by what is. -/
structure Guarded (server : Server σ) (keeping : Keeping) (key : Bytes) : Prop where
  refuses : server.RefusesUnsigned key
  changes : server.ChangesSigned keeping key

/-- The servers with a key: over the store in memory, saved after its writes or not, and over the
tables of a database, whose connection may be lost or not. -/
theorem changes_are_signed (key : Bytes) (privateKey : Option Rsa.PrivateKey) (limit : Option Nat)
    (maxBody timeout writeTime : Nat) (schedule : Retry.Schedule) (link : Database.Link)
    (path : String) :
    let opening : Envelope.Opening := ⟨some key, privateKey, limit⟩
    let inMemory : Server Memory := ⟨Memory.storage, opening, maxBody, timeout, writeTime⟩
    let inFile : Server (Snapshot.Saved Memory) :=
      ⟨Snapshot.writeThrough Memory.storage path, opening, maxBody, timeout, writeTime⟩
    let inTables : Server Database :=
      ⟨Database.storage schedule, opening, maxBody, timeout, writeTime⟩
    let overLink : Server Database :=
      ⟨Database.overLink schedule link, opening, maxBody, timeout, writeTime⟩
    inMemory.Guarded .eachInTurn key ∧ inFile.Guarded .eachInTurn key ∧
      inTables.Guarded .allOrNothing key ∧
      overLink.RefusesUnsigned key ∧ overLink.TablesSigned schedule link key := by
  intro opening inMemory inFile inTables overLink
  have memoryChanges :=
    @changesSigned _ inMemory _ key rfl Memory.follows Keeping.leavesFront_eachInTurn
  have fileChanges := @changesSigned _ inFile _ key rfl (Memory.follows.writeThrough path)
    Keeping.leavesFront_eachInTurn
  have tablesChange := @changesSigned _ inTables _ key rfl (Database.follows schedule)
    Keeping.leavesFront_allOrNothing
  exact ⟨⟨refusesUnsigned rfl, memoryChanges⟩, ⟨refusesUnsigned rfl, fileChanges⟩,
    ⟨refusesUnsigned rfl, tablesChange⟩, refusesUnsigned rfl, tablesSigned rfl rfl⟩

/-- A look-up brings no payload, and is answered without a tag. -/
theorem unsigned_lookup_is_answered :
    let server :
    Server Memory := ⟨Memory.storage, ⟨some (Bytes.ofText "k"), none, none⟩, 1024, 1000, 0⟩
    ¬ ∀ request : Request, request.header? "hashsha256" = none →
      400 ≤ (server.respond request {}).1.status ∧ (server.respond request {}).1.status < 500 := by
  intro server rejects
  have lookup := rejects { method := "GET", target := "/ping" } rfl
  have answered : (server.respond { method := "GET", target := "/ping" } {}).1.status = 200 := by
    decide
  omega

end Server
end Telemetry
