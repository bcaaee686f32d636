import Telemetry.Proofs.Result
import Telemetry.Proofs.Store.Keeping
import Telemetry.Server.App
import Telemetry.Server.Rpc

/-!
What requests and calls do to the store. An update is validated as a whole before any of it is
applied, so a refusal comes before the store is touched. Main statement: whatever is answered with a
status of the four hundreds leaves the contents alone, a success has applied what was asked in
order, and a failure of the store leaves what the store leaves of a batch.
-/
namespace Telemetry

namespace ApiFault

/-- Whether the fault lies with the request, and not with the time that it takes. -/
def IsRefusal (fault : ApiFault) : Prop := 400 ≤ fault.status ∧ fault.status < 500 ∧
    fault.status ≠ 408

theorem isRefusal_ofInvalid (invalid : Invalid) : (ofInvalid invalid).IsRefusal := by
  cases invalid <;> simp [ofInvalid, IsRefusal, status]

theorem isRefusal_ofJson (fault : Json.Fault) : (ofJson fault).IsRefusal := by
  simp [ofJson, IsRefusal, status]

end ApiFault

def Refuses {α : Type} (x : Except ApiFault α) : Prop := ∀ fault, x = .error fault → fault.IsRefusal

namespace Refuses

variable {α β ε : Type}

theorem ok (a : α) : Refuses (.ok a) := by
  intro fault failed
  cases failed

theorem error {fault : ApiFault} (refusal : fault.IsRefusal) :
    Refuses (.error fault : Except ApiFault α) := by
  intro other same
  cases same
  exact refusal

theorem bind {x : Except ApiFault α} {f : α → Except ApiFault β} (first : Refuses x)
    (next : ∀ a, Refuses (f a)) : Refuses (x >>= f) := by
  cases x with
  | error fault => exact error (first fault rfl)
  | ok a => exact next a

theorem map {x : Except ApiFault α} (refuses : Refuses x) (f : α → β) : Refuses (x.map f) := by
  cases x with
  | error fault => exact error (refuses fault rfl)
  | ok a => exact ok (f a)

theorem mapError {f : ε → ApiFault} (refusal : ∀ e, (f e).IsRefusal) (x : Except ε α) :
    Refuses (x.mapError f) := by
  cases x with
  | error e => exact error (refusal e)
  | ok a => exact ok a

theorem mapM {f : α → Except ApiFault β} (each : ∀ a, Refuses (f a)) (inputs : List α) :
    Refuses (inputs.mapM f) := by
  induction inputs with
  | nil => exact ok []
  | cons first rest ih =>
    rw [List.mapM_cons]
    exact (each first).bind fun _ => ih.bind fun _ => ok _

end Refuses

namespace Server

open ApiFault (isRefusal_ofInvalid isRefusal_ofJson)

theorem refuses_decodeParameter (name raw : String) : Refuses (decodeParameter name raw) :=
  Refuses.mapError (fun _ => by simp [ApiFault.IsRefusal, ApiFault.status]) _

theorem refuses_readPath (kind name value : String) : Refuses (readPath kind name value) := by
  refine (refuses_decodeParameter _ _).bind fun kind => ?_
  refine (refuses_decodeParameter _ _).bind fun name => ?_
  refine (refuses_decodeParameter _ _).bind fun value => ?_
  refine (Refuses.mapError isRefusal_ofInvalid _).bind fun kind => ?_
  have rest : Refuses do
      let value ← (kind.readValue value).mapError ApiFault.ofInvalid
      return (⟨name, value⟩ : Metric) :=
    (Refuses.mapError isRefusal_ofInvalid _).bind fun value => .ok _
  by_cases unnamed : name = ""
  · rw [if_pos unnamed]
    exact Refuses.error (by simp [ApiFault.IsRefusal, ApiFault.status])
  · rw [if_neg unnamed]
    exact rest

theorem refuses_readMetric (body : Bytes) : Refuses (readMetric body) :=
  (Refuses.mapError isRefusal_ofJson _).bind fun _ => Refuses.mapError isRefusal_ofInvalid _

theorem refuses_readBatch (body : Bytes) : Refuses (readBatch body) :=
  (Refuses.mapError isRefusal_ofJson _).bind fun wires =>
    Refuses.mapM (fun _ => Refuses.mapError isRefusal_ofInvalid _) wires

theorem refuses_readKey (body : Bytes) : Refuses (readKey body) :=
  (Refuses.mapError isRefusal_ofJson _).bind fun _ => Refuses.mapError isRefusal_ofInvalid _

theorem refuses_readLookup (kind name : String) : Refuses (readLookup kind name) := by
  refine (refuses_decodeParameter _ _).bind fun kind => ?_
  refine (refuses_decodeParameter _ _).bind fun name => ?_
  exact (Refuses.mapError isRefusal_ofInvalid _).bind fun kind => .ok _

theorem named_of_readPath {kind name value : String} {m : Metric}
    (parsed : readPath kind name value = .ok m) :
    m.id ≠ "" := by
  obtain ⟨kind, -, parsed⟩ := bind_eq_ok_iff.1 parsed
  obtain ⟨name, -, parsed⟩ := bind_eq_ok_iff.1 parsed
  obtain ⟨value, -, parsed⟩ := bind_eq_ok_iff.1 parsed
  obtain ⟨kind, -, parsed⟩ := bind_eq_ok_iff.1 parsed
  by_cases unnamed : name = ""
  · rw [if_pos unnamed] at parsed
    cases parsed
  · rw [if_neg unnamed] at parsed
    obtain ⟨-, -, parsed⟩ := bind_eq_ok_iff.1 parsed
    obtain ⟨value, -, parsed⟩ := bind_eq_ok_iff.1 parsed
    cases parsed
    exact unnamed

end Server

theorem Wire.named_of_toMetric {wire : Wire} {m : Metric} (valid : wire.toMetric = .ok m) :
    m.id ≠ "" := by
  obtain ⟨key, keyed, valid⟩ := bind_eq_ok_iff.1 valid
  have named : key.id ≠ "" := by
    unfold Wire.key at keyed
    by_cases unnamed : wire.id = ""
    · rw [if_pos unnamed] at keyed
      cases keyed
    · rw [if_neg unnamed] at keyed
      obtain ⟨kind, -, rfl⟩ := map_eq_ok_iff.1 keyed
      exact unnamed
  dsimp only at valid
  split at valid
  · cases valid
    exact named
  · cases valid

namespace Server

theorem named_of_readMetric {body : Bytes} {m : Metric} (parsed : readMetric body = .ok m) :
    m.id ≠ "" := by
  obtain ⟨wire, -, valid⟩ := bind_eq_ok_iff.1 parsed
  exact Wire.named_of_toMetric (mapError_eq_ok_iff.1 valid)

theorem named_of_readBatch {body : Bytes} {ms : List Metric} (parsed : readBatch body = .ok ms) :
    ∀ m ∈ ms, m.id ≠ "" := by
  intro m member
  obtain ⟨wires, -, valid⟩ := bind_eq_ok_iff.1 parsed
  obtain ⟨wire, -, valid⟩ := exists_of_mem_mapM valid member
  exact Wire.named_of_toMetric (mapError_eq_ok_iff.1 valid)

end Server

/-- How a request ends. -/
inductive Ending where
  | done
  | refused
  | failed
  | other
  deriving DecidableEq, Repr

namespace Ending

def ofStatus (status : Nat) : Ending :=
  if status = 200 then .done
  else if 400 ≤ status ∧ status < 500 then .refused
  else if status = 500 then .failed
  else .other

def ofCall : Except RpcFault Unit → Ending
  | .ok () => .done
  | .error (.internal _) => .failed
  | .error (.invalidArgument _) | .error (.unauthenticated _) => .refused

theorem ofStatus_of_isRefusal {fault : ApiFault} (refusal : fault.IsRefusal) :
    ofStatus fault.status = .refused := by
  obtain ⟨least, most, -⟩ := refusal
  have notDone : fault.status ≠ 200 := by omega
  rw [ofStatus, if_neg notDone, if_pos ⟨least, most⟩]

end Ending

/-- What a request does to the contents, by how it ends. An update that is done has applied the
metrics it asked for, one that failed leaves what the store leaves of them, and nothing else has an
effect. -/
inductive Effect (keeping : Keeping) (isUpdate : Bool) (asked : Option (List Metric))
    (before : Contents) : Ending → Contents → Prop
  | refused : Effect keeping isUpdate asked before .refused before
  | lookedUp (ending : Ending) (noUpdate : isUpdate = false) :
      Effect keeping isUpdate asked before ending before
  | done {ms : List Metric} {after : Contents} (update : isUpdate = true) (valid : asked = some ms)
      (each : updateEach Contents.update (ms.map keeping.form) before = (.ok (), after)) :
      Effect keeping isUpdate asked before .done after
  | failed {ms : List Metric} {after : Contents} (update : isUpdate = true)
      (valid : asked = some ms) (leaves : keeping.Leaves ms before after) :
      Effect keeping isUpdate asked before .failed after

namespace Effect

variable {keeping : Keeping} {isUpdate : Bool} {asked : Option (List Metric)}
  {before after : Contents}
  {ending : Ending}

theorem unchanged_of_noUpdate (effect : Effect keeping false asked before ending after) :
    after = before := by
  cases effect with
  | refused => rfl
  | lookedUp => rfl
  | done update => cases update
  | failed update => cases update

theorem front_of_changed (leaves : keeping.LeavesFront)
    (effect : Effect keeping isUpdate asked before ending after) (changed : after ≠ before) :
    isUpdate = true ∧ ∃ ms front, asked = some ms ∧ front <+: ms ∧
      updateEach Contents.update (front.map keeping.form) before = (.ok (), after) ∧
      (ending = .done ∧ front = ms ∨ ending = .failed ∧ front ≠ ms) := by
  cases effect with
  | refused => exact absurd rfl changed
  | lookedUp => exact absurd rfl changed
  | @done ms _ update valid each =>
    exact ⟨update, ms, ms, valid, List.prefix_refl ms, each, .inl ⟨rfl, rfl⟩⟩
  | @failed ms _ update valid left =>
    obtain ⟨front, part, applied, whole⟩ := leaves left
    exact ⟨update, ms, front, valid, part, applied, .inr ⟨rfl, fun same => changed (whole same)⟩⟩

end Effect

namespace Route

def isUpdate : Route → Bool
  | updatePath .. | update | updates => true
  | index | ping | value | valuePath .. => false

/-- The metrics that are asked to be stored at a route, if it is one that updates. -/
def asked (route : Route) (body : Bytes) : Option (Except ApiFault (List Metric)) :=
  match route with
  | updatePath kind name text => some ((Server.readPath kind name text).map ([·]))
  | update => some ((Server.readMetric body).map ([·]))
  | updates => some (Server.readBatch body)
  | index | ping | value | valuePath .. => none

end Route

def Request.isUpdate (request : Request) : Bool :=
  request.method == "POST" && (Route.ofPath? request.path).any Route.isUpdate

theorem Request.post_of_isUpdate {request : Request} (update : request.isUpdate = true) :
    request.method = "POST" := by
  simp only [Request.isUpdate, Bool.and_eq_true, beq_iff_eq] at update
  exact update.1

namespace Server

variable {σ : Type}

/-- The metrics that a request asks to have stored, if its payload opens and all of them are valid.
-/
def asked (server : Server σ) (request : Request) : Option (List Metric) := do
  let plain ← (server.openPayload request).toOption
  let route ← Route.ofPath? request.path
  (← route.asked plain).toOption

theorem asked_eq_some {server : Server σ} {request : Request} {ms : List Metric}
    (asked : server.asked request = some ms) :
    ∃ plain route, server.openPayload request = .ok plain ∧
      Route.ofPath? request.path = some route ∧
      route.asked plain = some (.ok ms) := by
  simp only [Server.asked, Option.bind_eq_bind, Option.bind_eq_some_iff] at asked
  obtain ⟨plain, opened, route, routed, parsed, here, valid⟩ := asked
  refine ⟨plain, route, toOption_eq_some_iff.1 opened, routed, ?_⟩
  rw [here, toOption_eq_some_iff.1 valid]

def statusOf : Except ApiFault Response → Nat
  | .ok response => response.status
  | .error fault => fault.status

/-- How an update that has been applied ends: with success, unless its only metric is not read back.
-/
inductive Concludes (server : Server σ) (ms : List Metric) (state : σ) : Ending → Prop
  | done : Concludes server ms state .done
  | unread {m : Metric} {fault : StoreFault} (single : ms = [m])
      (failed : server.storage.get m.key state = .error fault) :
      Concludes server ms state (.ofStatus (ApiFault.ofStore fault).status)

/-- What a request does with the store: it is refused before it comes to that, it only looks
something up, or the metrics that it asks for are applied. -/
inductive Touch (server : Server σ) (isUpdate : Bool) (asked : Option (List Metric)) (state : σ) :
    Ending → σ → Prop
  | refused : Touch server isUpdate asked state .refused state
  | lookedUp (ending : Ending) (noUpdate : isUpdate = false) :
      Touch server isUpdate asked state ending state
  | applied {ms : List Metric} {ending : Ending} (update : isUpdate = true)
      (valid : asked = some ms) (named : ∀ m ∈ ms, m.id ≠ "")
      (taken : (server.apply ms state).1 = .ok ())
      (concludes : server.Concludes ms (server.apply ms state).2 ending) :
      Touch server isUpdate asked state ending (server.apply ms state).2
  | failed {ms : List Metric} {fault : StoreFault} (update : isUpdate = true)
      (valid : asked = some ms) (named : ∀ m ∈ ms, m.id ≠ "")
      (failed : (server.apply ms state).1 = .error fault) :
      Touch server isUpdate asked state (.ofStatus (ApiFault.ofStore fault).status)
        (server.apply ms state).2

def Affects (server : Server σ) (keeping : Keeping) (isUpdate : Bool) (asked : Option (List Metric))
    (before : Contents) (ending : Ending) (state : σ) : Prop :=
  ∃ after, server.storage.all state = .ok after ∧ Effect keeping isUpdate asked before ending after

section Handling

variable {server : Server σ} {keeping : Keeping} {state next : σ} {before : Contents}
  {asked : Option (List Metric)} {isUpdate : Bool} {ending : Ending}

theorem Touch.of_refused (refusal : ending = .refused) :
    server.Touch isUpdate asked state ending state := by
  subst refusal
  exact .refused

theorem Touch.unchanged_of_noUpdate (touch : server.Touch false asked state ending next) :
    next = state := by
  cases touch with
  | refused => rfl
  | lookedUp => rfl
  | applied update => cases update
  | failed update => cases update

theorem ingest_cases (ms : List Metric) (state : σ) :
    server.isTooSlow = true ∧ server.ingest ms state = (.error .timedOut, state) ∨
      server.ingest ms state =
        ((server.apply ms state).1.mapError ApiFault.ofStore, (server.apply ms state).2) := by
  by_cases late : ms ≠ [] ∧ server.isTooSlow
  · exact .inl ⟨late.2, if_pos late⟩
  · exact .inr (if_neg late)

/-- An update validates first, then ingests, and its answer comes from what is stored then. -/
theorem touch_update (updates : isUpdate = true) {parsed : Except ApiFault (List Metric)}
    (refuses : Refuses parsed) (named : ∀ ms, parsed = .ok ms → ∀ m ∈ ms, m.id ≠ "")
    {answer : List Metric → σ → Except ApiFault Response}
    (answers : ∀ ms next, parsed = .ok ms →
      server.Concludes ms next (.ofStatus (statusOf (answer ms next)))) :
    server.Touch isUpdate parsed.toOption state
      (.ofStatus (statusOf (server.update parsed answer state).1))
      (server.update parsed answer state).2 := by
  rcases read : parsed with fault | ms
  · exact .of_refused (Ending.ofStatus_of_isRefusal (refuses fault read))
  rcases @ingest_cases _ server ms state with ⟨-, late⟩ | ingested
  · simp only [update, late]
    exact .of_refused rfl
  · simp only [update, ingested]
    cases applied : (server.apply ms state).1 with
    | ok => exact .applied updates rfl (named ms read) applied (answers ms _ read)
    | error fault => exact .failed updates rfl (named ms read) applied

theorem concludes_storedMetric (m : Metric) (state : σ) :
    server.Concludes [m] state (.ofStatus (statusOf (server.storedMetric [m] state))) := by
  cases found : server.storage.get m.key state with
  | ok stored =>
    simp only [storedMetric, lookup, found]
    exact .done
  | error fault =>
    simp only [storedMetric, lookup, found]
    exact .unread rfl found

/-- A route that reads the body refuses one over the limit, and otherwise does what it does. -/
theorem of_reading {p : Except ApiFault Response × σ → Prop} (body : Bytes)
    (refused :
      p (.ok (Response.text 413 "Failed to buffer the request body: length limit exceeded"), state))
    {outcome : Except ApiFault Response × σ} (read : p outcome) :
    p (match server.withinLimit body with
      | .error refusal => (.ok refusal, state)
      | .ok () => outcome) := by
  by_cases long : server.maxBody < body.length
  · simp only [withinLimit, if_pos long]
    exact refused
  · simp only [withinLimit, if_neg long]
    exact read

theorem touch_reading (body : Bytes) (outcome : Except ApiFault Response × σ)
    (read : server.Touch isUpdate asked state (.ofStatus (statusOf outcome.1)) outcome.2) :
    let result : Except ApiFault Response × σ := match server.withinLimit body with
      | .error refusal => (.ok refusal, state)
      | .ok () => outcome
    server.Touch isUpdate asked state (.ofStatus (statusOf result.1)) result.2 :=
  @of_reading σ server state
    (fun result => server.Touch isUpdate asked state (.ofStatus (statusOf result.1)) result.2)
    body (.of_refused rfl) outcome read

theorem touch_serve (route : Route) (body : Bytes) :
    server.Touch route.isUpdate ((route.asked body).bind Except.toOption) state
      (.ofStatus (statusOf (server.serve route body state).1))
        (server.serve route body state).2 := by
  cases route with
  | index => exact .lookedUp _ rfl
  | ping => exact .lookedUp _ rfl
  | valuePath kind name => exact .lookedUp _ rfl
  | value => exact touch_reading body (_, state) (.lookedUp _ rfl)
  | updatePath kind name text =>
    refine touch_update rfl ((refuses_readPath kind name text).map _) ?_ fun _ _ _ => .done
    intro ms parsed
    obtain ⟨m, valid, rfl⟩ := map_eq_ok_iff.1 parsed
    simpa using named_of_readPath valid
  | update =>
    refine touch_reading body _ (touch_update rfl ((refuses_readMetric body).map _) ?_ ?_)
    · intro ms parsed
      obtain ⟨m, valid, rfl⟩ := map_eq_ok_iff.1 parsed
      simpa using named_of_readMetric valid
    · intro ms next parsed
      obtain ⟨m, -, rfl⟩ := map_eq_ok_iff.1 parsed
      exact concludes_storedMetric m next
  | updates =>
    refine touch_reading body _ (touch_update rfl (refuses_readBatch body) ?_ fun _ _ _ => .done)
    intro ms parsed
    exact named_of_readBatch parsed

theorem touch_answer (method : String) (route : Route) (body : Bytes) :
    server.Touch route.isUpdate ((route.asked body).bind Except.toOption) state
      (.ofStatus (server.answer method (some route) body state).1.status)
      (server.answer method (some route) body state).2 := by
  by_cases accepted : route.accepts method = true
  · have served := @touch_serve _ server state route body
    simp only [answer, accepted, if_true]
    split
    case h_1 response next here =>
      rw [here] at served
      exact served
    case h_2 next here =>
      rw [here] at served
      exact served
    case h_3 fault next _ here =>
      rw [here] at served
      exact served
  · simp only [answer, accepted]
    exact .of_refused rfl

theorem payloadRefusal_eq_text (fault : Envelope.Fault) :
    ∃ status message, payloadRefusal fault = Response.text status message ∧
      (status = 400 ∨ status = 413) := by
  cases fault with
  | inflatedTooLarge limit => exact ⟨413, _, rfl, .inr rfl⟩
  | _ => exact ⟨400, _, rfl, .inl rfl⟩

theorem refusal_eq_text {request : Request} {refusal : Response}
    (closed : server.openPayload request = .error refusal) :
    ∃ status message, refusal = Response.text status message ∧ (status = 400 ∨ status = 413) := by
  unfold openPayload at closed
  split at closed
  · cases closed
    exact ⟨400, _, rfl, .inl rfl⟩
  · cases unsealed :
      server.opening.unseal request.body (isGzipped request) (request.header? "hashsha256") with
    | ok plain =>
      rw [unsealed] at closed
      cases closed
    | error fault =>
      rw [unsealed] at closed
      cases closed
      exact payloadRefusal_eq_text fault

theorem refusal_of_openPayload {request : Request} {refusal : Response}
    (closed : server.openPayload request = .error refusal) :
    Ending.ofStatus refusal.status = .refused := by
  obtain ⟨status, message, rfl, rfl | rfl⟩ := refusal_eq_text closed
  · rfl
  · rfl

theorem noUpdate_of_accepts {route : Route} {method : String} (other : method ≠ "POST")
    (accepted : route.accepts method = true) : route.isUpdate = false := by
  cases route <;> simp_all [Route.accepts, Route.isLookup, Route.isUpdate]

theorem touch_receive (request : Request) (state : σ) :
    server.Touch request.isUpdate (server.asked request) state
      (.ofStatus (server.receive request (Route.ofPath? request.path) state).1.status)
      (server.receive request (Route.ofPath? request.path) state).2 := by
  by_cases post : request.method = "POST"
  · simp only [receive, if_pos post]
    cases opened : server.openPayload request with
    | error refusal => exact .of_refused (refusal_of_openPayload opened)
    | ok plain =>
      cases there : Route.ofPath? request.path with
      | none => exact .of_refused rfl
      | some route =>
        have isUpdate : request.isUpdate = route.isUpdate := by simp [Request.isUpdate, post, there]
        have asked : server.asked request = (route.asked plain).bind Except.toOption := by
          simp [Server.asked, opened, there, Except.toOption]
          rfl
        rw [isUpdate, asked]
        exact touch_answer request.method route plain
  · have noUpdate : request.isUpdate = false := by simp [Request.isUpdate, post]
    simp only [receive, if_neg post]
    cases Route.ofPath? request.path with
    | none => exact .of_refused rfl
    | some route =>
      by_cases accepted : route.accepts request.method = true
      · have answered := @touch_answer _ server state request.method route []
        rw [noUpdate_of_accepts post accepted] at answered
        rw [answered.unchanged_of_noUpdate]
        exact .lookedUp _ noUpdate
      · simp only [answer, accepted]
        exact .of_refused rfl

theorem status_compress (request : Request) (response : Response) :
    (compress request response).status = response.status := by
  unfold compress
  split
  · rfl
  · dsimp only
    split <;> rfl

theorem status_respond (request : Request) (state : σ) :
    (server.respond request state).1.status =
      (server.receive request (Route.ofPath? request.path) state).1.status := by
  simp only [respond]
  split <;> exact status_compress request _

/-- Every request does with the store what its route says, whatever the store is. -/
theorem touch_respond (request : Request) (state : σ) :
    server.Touch request.isUpdate (server.asked request) state
      (.ofStatus (server.respond request state).1.status) (server.respond request state).2 := by
  rw [status_respond]
  exact touch_receive request state

/-! ### Stores that keep what they are given -/

theorem ofStore_of_blameless {fault : StoreFault}
    (blameless : fault = .database ∨ ∃ id, fault = .overflow id) :
    ApiFault.ofStore fault = .storage fault := by
  obtain rfl | ⟨id, rfl⟩ := blameless <;> rfl

theorem kept_apply (follows : keeping.Follows server.storage)
    (lists : server.storage.all state = .ok before) {ms : List Metric}
    (named : ∀ m ∈ ms, m.id ≠ "") :
    keeping.Kept server.storage ms before (server.apply ms state) := by
  match ms with
  | [] => exact .applied lists rfl
  | [m] =>
    have alone := follows.batch named lists
    rw [← follows.single] at alone
    exact alone
  | m :: m' :: rest => exact follows.batch named lists

theorem get_of_applied (follows : keeping.Follows server.storage) {m : Metric} {after : Contents}
    (lists : server.storage.all next = .ok after)
    (each : updateEach Contents.update ([m].map keeping.form) before = (.ok (), after)) :
    ∃ stored, server.storage.get m.key next = .ok stored := by
  rw [List.map_singleton, updateEach_singleton] at each
  obtain ⟨value, there⟩ := Contents.get?_update_self each
  rw [follows.key_form] at there
  exact ⟨_, follows.get lists there⟩

theorem Concludes.eq_done (follows : keeping.Follows server.storage) {ms : List Metric}
    {after : Contents} (lists : server.storage.all next = .ok after)
    (each : updateEach Contents.update (ms.map keeping.form) before = (.ok (), after))
    (concludes : server.Concludes ms next ending) : ending = .done := by
  cases concludes with
  | done => rfl
  | unread single failed =>
    subst single
    obtain ⟨stored, found⟩ := get_of_applied follows lists each
    rw [failed] at found
    cases found

theorem Touch.affects (follows : keeping.Follows server.storage)
    (lists : server.storage.all state = .ok before)
    (touch : server.Touch isUpdate asked state ending next) :
    server.Affects keeping isUpdate asked before ending next := by
  cases touch with
  | refused => exact ⟨before, lists, .refused⟩
  | lookedUp _ noUpdate => exact ⟨before, lists, .lookedUp _ noUpdate⟩
  | @applied ms _ update valid named taken concludes =>
    have kept := kept_apply follows lists named
    generalize server.apply ms state = applied at kept taken concludes ⊢
    cases kept with
    | applied lists each =>
      obtain rfl := concludes.eq_done follows lists each
      exact ⟨_, lists, .done update valid each⟩
    | refused => cases taken
  | @failed ms fault update valid named failed =>
    have kept := kept_apply follows lists named
    generalize server.apply ms state = applied at kept failed ⊢
    cases kept with
    | applied => cases failed
    | refused blameless lists leaves =>
      cases failed
      rw [ofStore_of_blameless blameless]
      exact ⟨_, lists, .failed update valid leaves⟩

theorem respond_affects (follows : keeping.Follows server.storage)
    (lists : server.storage.all state = .ok before) (request : Request) :
    server.Affects keeping request.isUpdate (server.asked request) before
      (.ofStatus (server.respond request state).1.status) (server.respond request state).2 :=
  (touch_respond request state).affects follows lists

theorem refusal_of_verifyCall {call : Call} {m : Metric} {fault : RpcFault}
    (unverified : server.verifyCall call m = .error fault) :
    Ending.ofCall (.error fault) = .refused := by
  unfold verifyCall at unverified
  split at unverified
  · cases unverified
  split at unverified
  · cases unverified
    rfl
  split at unverified
  · cases unverified
  · cases unverified
    rfl

theorem admitCall_eq (server : Server σ) (call : Call) :
    server.admitCall call =
      if call.value.isFinite = false then .error (.invalidArgument "gauge value must be finite")
      else if call.name = "" then .error (.invalidArgument "name is required")
      else server.verifyCall call ⟨call.name, call.value⟩ >>= fun _ =>
        .ok ⟨call.name, call.value⟩ := by
  unfold admitCall
  cases call.value with
  | gauge reading =>
    cases finite : reading.isFinite with
    | false => simp [Value.isFinite, finite, throw_eq_error, error_bind]
    | true =>
      by_cases unnamed : call.name = "" <;>
        simp [Value.isFinite, finite, unnamed, throw_eq_error, error_bind]
  | counter delta =>
    by_cases unnamed : call.name = "" <;> simp [Value.isFinite, unnamed, throw_eq_error, error_bind]

theorem admitCall_cases (server : Server σ) (call : Call) :
    (server.admitCall call = .ok ⟨call.name, call.value⟩ ∧ call.name ≠ "") ∨
      ∃ fault, server.admitCall call = .error fault ∧ Ending.ofCall (.error fault) = .refused := by
  rw [admitCall_eq]
  by_cases notFinite : call.value.isFinite = false
  · rw [if_pos notFinite]
    exact .inr ⟨_, rfl, rfl⟩
  rw [if_neg notFinite]
  by_cases unnamed : call.name = ""
  · rw [if_pos unnamed]
    exact .inr ⟨_, rfl, rfl⟩
  rw [if_neg unnamed]
  cases verified : server.verifyCall call ⟨call.name, call.value⟩ with
  | error fault => exact .inr ⟨fault, rfl, refusal_of_verifyCall verified⟩
  | ok => exact .inl ⟨rfl, unnamed⟩

theorem serveCall_cases (server : Server σ) (call : Call) (state : σ) :
    (Ending.ofCall (server.serveCall call state).1 = .refused ∧
      (server.serveCall call state).2 = state) ∨
      call.name ≠ "" ∧ server.serveCall call state =
        let applied := server.apply [⟨call.name, call.value⟩] state
        ((applied.1.mapError ApiFault.ofStore).mapError RpcFault.ofApi, applied.2) := by
  rcases admitCall_cases server call with ⟨admitted, named⟩ | ⟨fault, refused, refusal⟩
  · refine .inr ⟨named, ?_⟩
    simp only [serveCall, admitted]
    rcases @ingest_cases _ { server with writeTime := 0 } [⟨call.name, call.value⟩] state with
      ⟨late, -⟩ | ingested
    · cases late
    · rw [ingested]
      rfl
  · simp only [serveCall, refused]
    exact .inl ⟨refusal, trivial⟩

theorem serveCall_affects (follows : keeping.Follows server.storage)
    (lists : server.storage.all state = .ok before) (call : Call) :
    server.Affects keeping true (some [⟨call.name, call.value⟩]) before
      (.ofCall (server.serveCall call state).1) (server.serveCall call state).2 := by
  rcases serveCall_cases server call state with ⟨refusal, unchanged⟩ | ⟨named, served⟩
  · rw [refusal, unchanged]
    exact ⟨before, lists, .refused⟩
  · have namedAll : ∀ m ∈ [(⟨call.name, call.value⟩ : Metric)], m.id ≠ "" := by simpa using named
    have kept := kept_apply follows lists namedAll
    rw [served]
    generalize server.apply [⟨call.name, call.value⟩] state = applied at kept ⊢
    cases kept with
    | applied lists each => exact ⟨_, lists, .done rfl rfl each⟩
    | refused blameless lists leaves =>
      simp only [mapError_error, ofStore_of_blameless blameless]
      exact ⟨_, lists, .failed rfl rfl leaves⟩

end Handling

/-- What is listed after a request or a call, by a server over the store in memory and by one over
the tables of a database without errors of its own. -/
theorem requests_affect_contents (opening : Envelope.Opening) (maxBody timeout writeTime : Nat)
    (schedule : Retry.Schedule) (memory tables : Memory) (request : Request) (call : Call) :
    let inMemory : Server Memory := ⟨Memory.storage, opening, maxBody, timeout, writeTime⟩
    let inTables : Server Database :=
      ⟨Database.storage schedule, opening, maxBody, timeout, writeTime⟩
    let called := some [⟨call.name, call.value⟩]
    inMemory.Affects .eachInTurn request.isUpdate (inMemory.asked request) memory.contents
      (.ofStatus (inMemory.respond request memory).1.status) (inMemory.respond request memory).2 ∧
    inTables.Affects .allOrNothing request.isUpdate (inTables.asked request) tables.contents
      (.ofStatus (inTables.respond request ⟨some tables⟩).1.status)
      (inTables.respond request ⟨some tables⟩).2 ∧
    inMemory.Affects .eachInTurn true called memory.contents
      (.ofCall (inMemory.serveCall call memory).1) (inMemory.serveCall call memory).2 ∧
    inTables.Affects .allOrNothing true called tables.contents
      (.ofCall (inTables.serveCall call ⟨some tables⟩).1)
        (inTables.serveCall call ⟨some tables⟩).2 := by
  intro inMemory inTables called
  have memoryFollows : Keeping.eachInTurn.Follows inMemory.storage := Memory.follows
  have tablesFollow : Keeping.allOrNothing.Follows inTables.storage := Database.follows schedule
  have memoryLists : inMemory.storage.all memory = .ok memory.contents := rfl
  have tablesList : inTables.storage.all ⟨some tables⟩ = .ok tables.contents := rfl
  exact ⟨respond_affects memoryFollows memoryLists request,
    respond_affects tablesFollow tablesList request,
    serveCall_affects memoryFollows memoryLists call,
    serveCall_affects tablesFollow tablesList call⟩

end Server
end Telemetry
