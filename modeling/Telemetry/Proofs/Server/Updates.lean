import Telemetry.Proofs.Metric.Wire
import Telemetry.Proofs.Server.Effects
import Telemetry.Proofs.Store.Overflow

/-!
Requests that bring metrics to a server over the store in memory. Main statement: once the payload
is opened, all metrics are applied in order and the answer is a success, unless a total leaves the
64-bit range on the way.
-/
namespace Telemetry.Server

section Reading

theorem readMetric_toJson {m : Metric} (named : m.id ≠ "") (finite : m.value.isFinite) :
    readMetric m.toJson = .ok m := by
  rw [readMetric, readWire, Metric.document_toJson finite, mapError_ok, ok_bind,
    Wire.toMetric_ofMetric named, mapError_ok]

theorem readBatch_listToJson {ms : List Metric} (named : ∀ m ∈ ms, m.id ≠ "")
    (finite : ∀ m ∈ ms, m.value.isFinite) : readBatch (Metric.listToJson ms) = .ok ms := by
  rw [readBatch, Metric.document_listToJson finite, mapError_ok, ok_bind]
  clear finite
  induction ms with
  | nil => rfl
  | cons m rest ih =>
    rw [List.forall_mem_cons] at named
    rw [List.map_cons, List.mapM_cons, Wire.toMetric_ofMetric named.1, mapError_ok, ok_bind,
      ih named.2]
    rfl

end Reading

variable {server : Server Memory} {request : Request} {route : Route} {plain : Bytes}
  {ms : List Metric}
  {memory : Memory}

/-- What becomes of metrics that a request brings: they are applied in order, all of them and with
success, or those before a total leaves the 64-bit range. -/
structure Takes (server : Server Memory) (request : Request) (ms : List Metric)
    (answers : Memory → Bytes → Prop) (memory : Memory) : Prop where
  applied : (server.respond request memory).2 = (updateEach Memory.update ms memory).2
  succeeds : ¬ memory.contents.Overflows ms →
    (updateEach Memory.update ms memory).1 = .ok () ∧
    (server.respond request memory).1.status = 200 ∧
      answers (server.respond request memory).2 (server.respond request memory).1.body
  fails : memory.contents.Overflows ms →
    (∃ id, (updateEach Memory.update ms memory).1 = .error (.overflow id)) ∧
      (server.respond request memory).1.status = 500

theorem apply_eq (inMemory : server.storage = Memory.storage) (ms : List Metric) (state : Memory) :
    server.apply ms state = updateEach Memory.update ms state := by
  match ms with
  | [] => rfl
  | [m] =>
    rw [apply, inMemory, updateEach_singleton]
    rfl
  | m :: m' :: rest =>
    rw [apply, inMemory]
    · rfl
    all_goals simp

theorem ingest_eq (inMemory : server.storage = Memory.storage) (instant : server.writeTime = 0)
    (ms : List Metric) (state : Memory) :
    server.ingest ms state =
      ((updateEach Memory.update ms state).1.mapError ApiFault.ofStore,
        (updateEach Memory.update ms state).2) := by
  have patient : server.isTooSlow = false := by rw [isTooSlow, instant]; rfl
  have inTime : ¬ (ms ≠ [] ∧ server.isTooSlow = true) := by simp [patient]
  rw [ingest, if_neg inTime, apply_eq inMemory]

theorem body_compress (plainly : prefersGzip request = false) (response : Response) :
    (compress request response).body = response.body := by
  rw [compress]
  split
  · rfl
  · simp only [plainly, Bool.false_eq_true, if_false]

theorem receive_of_serve (post : request.method = "POST")
    (opened : server.openPayload request = .ok plain) (accepts : route.accepts "POST" = true)
    {result : Except ApiFault Response} {after : Memory}
    (served : server.serve route plain memory = (result, after)) :
    (server.receive request (some route) memory).2 = after ∧
      (server.receive request (some route) memory).1.status = statusOf result ∧
      ∀ response, result = .ok response →
        (server.receive request (some route) memory).1.body = response.body := by
  rw [receive, if_pos post, opened, post]
  simp only [answer, if_pos accepts, served]
  cases result with
  | ok response =>
    refine ⟨rfl, rfl, ?_⟩
    rintro other ⟨⟩
    rfl
  | error fault =>
    have noResponse :
        ∀ response, (Except.error fault : Except ApiFault Response) ≠ .ok response := by
      intro response same
      cases same
    cases fault <;> exact ⟨rfl, rfl, fun response same => absurd same (noResponse response)⟩

/-- The response to a request that is opened and routed: the status and the state are those of the
route, and so is the body if the client asks for no coding. -/
theorem respond_eq (post : request.method = "POST")
    (opened : server.openPayload request = .ok plain)
    (routed : Route.ofPath? request.path = some route) (accepts : route.accepts "POST" = true)
    {result : Except ApiFault Response} {after : Memory}
    (served : server.serve route plain memory = (result, after)) :
    (server.respond request memory).2 = after ∧
      (server.respond request memory).1.status = statusOf result ∧
      (prefersGzip request = false → ∀ response, result = .ok response →
        (server.respond request memory).1.body = response.body) := by
  obtain ⟨state, status, body⟩ := receive_of_serve post opened accepts served
  have noHead : request.method ≠ "HEAD" := by
    rw [post]
    decide
  refine ⟨?_, ?_, ?_⟩
  · rw [respond, routed]
    exact state
  · rw [status_respond, routed]
    exact status
  · intro plainly response answered
    rw [respond, routed]
    simp only [if_neg noHead]
    exact (body_compress plainly _).trans (body response answered)

/-- What a route makes of metrics that are brought to it: all of them are stored and it answers with
success, or a total leaves the 64-bit range and it fails. -/
def Stores (server : Server Memory) (route : Route) (plain : Bytes) (ms : List Metric)
    (answers : Memory → Response → Prop) (memory : Memory) : Prop :=
  let stored := updateEach Memory.update ms memory
  (¬ memory.contents.Overflows ms ∧ stored.1 = .ok () ∧ ∃ response,
      server.serve route plain memory = (.ok response, stored.2) ∧ response.status = 200 ∧
        answers stored.2 response) ∨
    memory.contents.Overflows ms ∧ ∃ id, stored.1 = .error (.overflow id) ∧
      server.serve route plain memory = (.error (.storage (.overflow id)), stored.2)

theorem stores_of_serve (named : ∀ m ∈ ms, m.id ≠ "") (inMemory : server.storage = Memory.storage)
    (instant : server.writeTime = 0) {answer : List Metric → Memory → Except ApiFault Response}
    {answers : Memory → Response → Prop}
    (serves : server.serve route plain memory = server.update (.ok ms) answer memory)
    (success : (updateEach Memory.update ms memory).1 = .ok () →
      ∃ response, answer ms (updateEach Memory.update ms memory).2 = .ok response ∧
        response.status = 200 ∧
        answers (updateEach Memory.update ms memory).2 response) :
    server.Stores route plain ms answers memory := by
  have ingested := ingest_eq inMemory instant ms memory
  rcases Memory.updateEach_of_named named memory with ⟨fits, taken⟩ | ⟨overflows, id, refused⟩
  · obtain ⟨response, answered, status, body⟩ := success taken
    refine .inl ⟨fits, taken, response, ?_, status, body⟩
    rw [serves, update]
    simp only [ingested, taken, mapError_ok, answered]
  · refine .inr ⟨overflows, id, refused, ?_⟩
    rw [serves, update]
    simp only [ingested, refused, mapError_error]
    rfl

theorem takes_of_stores (post : request.method = "POST") (plainly : prefersGzip request = false)
    (opened : server.openPayload request = .ok plain)
    (routed : Route.ofPath? request.path = some route) (accepts : route.accepts "POST" = true)
    {kept : Memory → Response → Prop} {answers : Memory → Bytes → Prop}
    (stores : server.Stores route plain ms kept memory)
    (body : ∀ after response, kept after response → answers after response.body) :
    server.Takes request ms answers memory := by
  rcases stores with ⟨fits, taken, response, served, ok, answer⟩ | ⟨overflows, id, refused, served⟩
  · obtain ⟨state, status, written⟩ := respond_eq post opened routed accepts served
    constructor
    · exact state
    · intro _
      rw [state, status, written plainly response rfl]
      exact ⟨taken, ok, body _ response answer⟩
    · intro overflows
      exact absurd overflows fits
  · obtain ⟨state, status, -⟩ := respond_eq post opened routed accepts served
    constructor
    · exact state
    · intro fits
      exact absurd overflows fits
    · intro _
      rw [status]
      exact ⟨⟨id, refused⟩, rfl⟩

theorem stores_listToJson (named : ∀ m ∈ ms, m.id ≠ "") (finite : ∀ m ∈ ms, m.value.isFinite)
    (short : (Metric.listToJson ms).length ≤ server.maxBody)
    (inMemory : server.storage = Memory.storage) (instant : server.writeTime = 0)
    (memory : Memory) :
    server.Stores .updates (Metric.listToJson ms) ms (fun _ response => response = updatedCount ms)
      memory := by
  have within : server.withinLimit (Metric.listToJson ms) = .ok () := if_neg (Nat.not_lt.2 short)
  apply stores_of_serve named inMemory instant
  · simp only [serve, within, readBatch_listToJson named finite]
    rfl
  · intro _
    exact ⟨_, rfl, rfl, rfl⟩

theorem stores_toJson {m : Metric} (named : m.id ≠ "") (finite : m.value.isFinite)
    (short : m.toJson.length ≤ server.maxBody) (inMemory : server.storage = Memory.storage)
    (instant : server.writeTime = 0) (memory : Memory) :
    server.Stores .update m.toJson [m]
      (fun after response => ∃ stored, Memory.get m.key after = .ok stored ∧
        response = Response.json stored.toJson) memory := by
  have within : server.withinLimit m.toJson = .ok () := if_neg (Nat.not_lt.2 short)
  have namedAll : ∀ m' ∈ [m], m'.id ≠ "" := List.forall_mem_singleton.2 named
  apply stores_of_serve namedAll inMemory instant
  · simp only [serve, within, readMetric_toJson named finite]
    rfl
  · intro taken
    have listed : Contents.update m memory.contents =
        (.ok (), (updateEach Memory.update [m] memory).2.contents) := by
      rw [updateEach_singleton] at taken ⊢
      rw [Memory.update_contents, taken]
    obtain ⟨value, there⟩ := Contents.get?_update_self listed
    have found := Memory.get_of_contents there
    refine ⟨Response.json (Metric.toJson ⟨m.key.id, value⟩), ?_, rfl, _, found, rfl⟩
    rw [storedMetric, lookup, inMemory]
    change (do return Response.json (← (Memory.get _ _).mapError ApiFault.ofStore).toJson) = _
    rw [found]
    rfl

theorem takes_listToJson (post : request.method = "POST") (plainly : prefersGzip request = false)
    (opened : server.openPayload request = .ok (Metric.listToJson ms))
    (routed : Route.ofPath? request.path = some .updates) (named : ∀ m ∈ ms, m.id ≠ "")
    (finite : ∀ m ∈ ms, m.value.isFinite) (short : (Metric.listToJson ms).length ≤ server.maxBody)
    (inMemory : server.storage = Memory.storage) (instant : server.writeTime = 0)
    (memory : Memory) :
    server.Takes request ms (fun _ body => body =
      Json.object [("updated", Bytes.ofAscii (Nat.toDigits 10 ms.length))]) memory := by
  have stores := stores_listToJson named finite short inMemory instant memory
  apply takes_of_stores post plainly opened routed rfl stores
  rintro _ response rfl
  rfl

theorem takes_toJson {m : Metric} (post : request.method = "POST")
    (plainly : prefersGzip request = false) (opened : server.openPayload request = .ok m.toJson)
    (routed : Route.ofPath? request.path = some .update) (named : m.id ≠ "")
    (finite : m.value.isFinite) (short : m.toJson.length ≤ server.maxBody)
    (inMemory : server.storage = Memory.storage) (instant : server.writeTime = 0)
    (memory : Memory) :
    server.Takes request [m] (fun after body => ∃ stored, Memory.get m.key after = .ok stored ∧
      body = stored.toJson) memory := by
  have stores := stores_toJson named finite short inMemory instant memory
  apply takes_of_stores post plainly opened routed rfl stores
  rintro after _ ⟨stored, found, rfl⟩
  exact ⟨stored, found, rfl⟩

end Telemetry.Server
