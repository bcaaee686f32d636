import Telemetry.Net.Uri
import Telemetry.Proofs.Rpc.Message
import Telemetry.Proofs.Server.Path

/-!
Ways of sending metrics. Main statement: a metric has the same effect and the same ending whichever
way it is sent, and a list has those of its metrics one by one, up to the first that fails; but a
call brings negative zero as zero.
-/
namespace Telemetry.Server

open Url (Escapes)

section Sending

variable {σ : Type}

def post (headers : List (String × Bytes)) (target : String) (body : Bytes) : Request :=
  { method := "POST", target, headers, body }

/-- A way to send one metric: its JSON, a list of it, its parts in a path, or a call with its parts
in a message. -/
inductive Way where
  | json (headers : List (String × Bytes))
  | batch (headers : List (String × Bytes))
  | path (name : String) (headers : List (String × Bytes))
  | call (metadata : List (String × Bytes))

def ending (server : Server σ) (request : Request) (state : σ) : Ending × σ :=
  (.ofStatus (server.respond request state).1.status, (server.respond request state).2)

def sendBy (server : Server σ) (m : Metric) (state : σ) : Way → Ending × σ
  | .json headers => server.ending (post headers "/update/" m.toJson) state
  | .batch headers => server.ending (post headers "/updates/" (Metric.listToJson [m])) state
  | .path name headers =>
    let target := Url.pathText (.segments ["update", m.kind.name, name, m.value.toText])
    server.ending (post headers target []) state
  | .call metadata =>
    match (Call.sent ⟨m.id, m.value, metadata⟩).arrived with
    | some call => (.ofCall (server.serveCall call state).1, (server.serveCall call state).2)
    | none => (.refused, state)

/-- Sends metrics one by one, up to the first that does not end well. -/
def sendEach (server : Server σ) : List (Way × Metric) → σ → Ending × σ
  | [], state => (.done, state)
  | (way, m) :: rest, state =>
    match server.sendBy m state way with
    | (.done, next) => server.sendEach rest next
    | stopped => stopped

end Sending

/-- The metric that arrives by a way: in a message negative zero equals the default. -/
def Way.delivered (m : Metric) : Way → Metric
  | .json _ | .batch _ | .path .. => m
  | .call _ => ⟨m.id, m.value.carried⟩

def Uncoded (headers : List (String × Bytes)) : Prop := isGzipped (post headers "" []) = false

/-- A way that a server takes a metric by: its body fits and comes as it is, its path stands for the
id, and its message is not too long. -/
inductive Way.Brings (maxBody : Nat) (m : Metric) : Way → Prop
  | json {headers : List (String × Bytes)} (uncoded : Uncoded headers)
      (fits : m.toJson.length ≤ maxBody) :
      Brings maxBody m (.json headers)
  | batch {headers : List (String × Bytes)} (uncoded : Uncoded headers)
      (fits : (Metric.listToJson [m]).length ≤ maxBody) : Brings maxBody m (.batch headers)
  | path {name : String} (escapes : Escapes name m.id) (headers : List (String × Bytes)) :
      Brings maxBody m (.path name headers)
  | call {metadata : List (String × Bytes)}
      (within : (Call.sent ⟨m.id, m.value, metadata⟩).message.length ≤ Message.limit) :
      Brings maxBody m (.call metadata)

/-- What a store makes of metrics: how the request ends that brings them, and the state behind it.
-/
def stored (ms : List Metric) (memory : Memory) : Ending × Memory :=
  (if (updateEach Memory.update ms memory).1.isOk then .done else .failed,
    (updateEach Memory.update ms memory).2)

theorem stored_of_ok {ms : List Metric} {memory next : Memory}
    (taken : updateEach Memory.update ms memory = (.ok (), next)) :
    stored ms memory = (.done, next) := by
  rw [stored, taken]
  rfl

theorem stored_of_error {ms : List Metric} {memory next : Memory} {fault : StoreFault}
    (refused : updateEach Memory.update ms memory = (.error fault, next)) :
    stored ms memory = (.failed, next) := by
  rw [stored, refused]
  rfl

theorem stored_of_named {ms : List Metric} (named : ∀ m ∈ ms, m.id ≠ "") (memory : Memory) :
    ¬ memory.contents.Overflows ms ∧ (stored ms memory).1 = .done ∨
      memory.contents.Overflows ms ∧ (stored ms memory).1 = .failed := by
  rcases Memory.updateEach_of_named named memory with ⟨fits, taken⟩ | ⟨overflows, id, refused⟩
  · exact .inl ⟨fits, by rw [stored_of_ok (Prod.ext taken rfl)]⟩
  · exact .inr ⟨overflows, by rw [stored_of_error (Prod.ext refused rfl)]⟩

variable {server : Server Memory} {request : Request} {route : Route} {plain : Bytes}
  {ms : List Metric}
  {answers : Memory → Response → Prop} {memory : Memory} {m : Metric}

theorem ending_of_stores (isPost : request.method = "POST")
    (opened : server.openPayload request = .ok plain)
    (routed : Route.ofPath? request.path = some route) (accepts : route.accepts "POST" = true)
    (stores : server.Stores route plain ms answers memory) :
    server.ending request memory = stored ms memory := by
  rcases stores with ⟨-, taken, response, served, ok, -⟩ | ⟨-, id, refused, served⟩
  · obtain ⟨state, status, -⟩ := respond_eq isPost opened routed accepts served
    rw [stored_of_ok (Prod.ext taken rfl), ending, state, status, statusOf, ok]
    rfl
  · obtain ⟨state, status, -⟩ := respond_eq isPost opened routed accepts served
    rw [stored_of_error (Prod.ext refused rfl), ending, state, status]
    rfl

/-! ### The ways -/

theorem Way.delivered_eq (m : Metric) (way : Way) :
    way.delivered m = m ∨ m.value = .gauge .negativeZero ∧ (∃ metadata, way = .call metadata) ∧
      way.delivered m = ⟨m.id, .gauge .zero⟩ := by
  cases way with
  | call metadata =>
    by_cases zero : m.value = .gauge .negativeZero
    · refine .inr ⟨zero, ⟨metadata, rfl⟩, ?_⟩
      rw [delivered, zero]
      rfl
    · rw [delivered, Value.carried_of_ne zero]
      exact .inl rfl
  | _ => exact .inl rfl

theorem Way.id_delivered (m : Metric) (way : Way) : (way.delivered m).id = m.id := by
  cases way <;> rfl

theorem Way.isFinite_delivered (m : Metric) (way : Way) :
    (way.delivered m).value.isFinite = m.value.isFinite := by
  cases way with
  | call metadata => exact Value.isFinite_carried m.value
  | _ => rfl

/-- The sign of a zero makes no difference to whether a metric is stored. -/
theorem stored_delivered (named : m.id ≠ "") (way : Way) (memory : Memory) :
    (stored [way.delivered m] memory).1 = (stored [m] memory).1 := by
  have stores : ∀ m' : Metric, m'.id = m.id → ∀ reading, m'.value = .gauge reading →
      (stored [m'] memory).1 = .done := by
    intro m' same reading gauge
    have named' : m'.id ≠ "" := by
      rw [same]
      exact named
    rw [stored, updateEach_singleton, Memory.update_gauge named' gauge]
    rfl
  rcases way.delivered_eq m with same | ⟨zero, -, other⟩
  · rw [same]
  · rw [other, stores ⟨m.id, .gauge .zero⟩ rfl _ rfl, stores m rfl _ zero]

theorem Way.brings_call {maxBody : Nat} {name : String} (escapes : Escapes name m.id)
    (short : (Url.pathText (.segments ["update", m.kind.name, name, m.value.toText])).utf8ByteSize <
      Net.Uri.lengthLimit) (metadata : List (String × Bytes)) :
      (Way.call metadata).Brings maxBody m := by
  have decoded := Bytes.ofText_of_toText? escapes.decoded
  have id : (Bytes.ofText m.id).length ≤ (Bytes.ofText name).length := by
    rw [decoded]
    exact Percent.length_decode_le _
  have inside : (Bytes.ofText name).length ≤
      (Url.pathText (.segments ["update", m.kind.name, name, m.value.toText])).utf8ByteSize := by
    change name.utf8ByteSize ≤ _
    simp only [Url.pathText, String.join, List.map_cons, List.map_nil, List.foldl_cons,
      List.foldl_nil, String.utf8ByteSize_append]
    omega
  have message := Message.length_write_le m.id m.value
  have limits : Net.Uri.lengthLimit + 40 ≤ Message.limit := by decide
  refine .call ?_
  change (Message.write m.id m.value).length ≤ _
  omega

theorem routed_post {target : String} (routed : Route.ofPath? (post [] target []).path = some route)
    (headers : List (String × Bytes)) (body : Bytes) :
    Route.ofPath? (post headers target body).path = some route := by
  have same : (post headers target body).path = (post [] target []).path := rfl
  rw [same]
  exact routed

theorem openPayload_uncoded (unkeyed : server.opening.key = none)
    (unpaired : server.opening.privateKey = none) {headers : List (String × Bytes)}
    (uncoded : Uncoded headers) (target : String) (fits : plain.length ≤ server.maxBody) :
    server.openPayload (post headers target plain) = .ok plain := by
  have coding : isGzipped (post headers target plain) = false := uncoded
  have body : (post headers target plain).body = plain := rfl
  rw [openPayload, body, if_neg (Nat.not_lt.2 fits), coding, Envelope.Opening.unseal,
    Envelope.Opening.decipher, unpaired]
  simp only [ok_bind, Envelope.Opening.inflate, Bool.false_and, Bool.false_eq_true, if_false,
    Envelope.Opening.authenticate, unkeyed, mapError_ok]

theorem serveCall_eq (inMemory : server.storage = Memory.storage)
    (unkeyed : server.opening.key = none) (named : m.id ≠ "") (finite : m.value.isFinite)
    (metadata : List (String × Bytes)) (memory : Memory) :
    (Ending.ofCall (server.serveCall ⟨m.id, m.value, metadata⟩ memory).1,
      (server.serveCall ⟨m.id, m.value, metadata⟩ memory).2) = stored [m] memory := by
  have verified : server.verifyCall ⟨m.id, m.value, metadata⟩ m = .ok () := by
    rw [verifyCall, unkeyed]
  have admitted : server.admitCall ⟨m.id, m.value, metadata⟩ = .ok m := by
    have isFinite : ¬ m.value.isFinite = false := by simp [finite]
    rw [admitCall_eq, if_neg isFinite, if_neg named, verified]
    rfl
  have namedAll : ∀ m' ∈ [m], m'.id ≠ "" := List.forall_mem_singleton.2 named
  have ingested := @ingest_eq { server with writeTime := 0 } inMemory rfl [m] memory
  simp only [serveCall, admitted, ingested]
  rcases Memory.updateEach_of_named namedAll memory with ⟨-, taken⟩ | ⟨-, id, refused⟩
  · rw [stored_of_ok (Prod.ext taken rfl), taken]
    rfl
  · rw [stored_of_error (Prod.ext refused rfl), refused]
    rfl

/-- Without a key, what a route answers is sent as it is, but for the coding that the client asks
for. -/
theorem respond_unkeyed (unkeyed : server.opening.key = none) (isPost : request.method = "POST")
    (opened : server.openPayload request = .ok plain)
    (routed : Route.ofPath? request.path = some route) (accepts : route.accepts "POST" = true)
    {body : Bytes} {after : Memory}
    (served : server.serve route plain memory = (.ok (Response.json body), after)) :
    (server.respond request memory).1 = compress request (Response.json body) := by
  have noHead : request.method ≠ "HEAD" := by
    rw [isPost]
    decide
  have allowed : allowedInstead request (some route) = none := by
    simp only [allowedInstead, isPost, accepts, if_true]
  have received : (server.receive request (some route) memory).1 = Response.json body := by
    rw [receive, if_pos isPost, opened, isPost]
    simp only [answer, accepts, if_true, served, signResponse, unkeyed]
    rfl
  rw [respond, routed]
  simp only [if_neg noHead, allowed, received]
  rfl

section Ways

variable (inMemory : server.storage = Memory.storage) (instant : server.writeTime = 0)
  (unkeyed : server.opening.key = none) (unpaired : server.opening.privateKey = none)
include inMemory instant unkeyed unpaired

theorem ending_updates {headers : List (String × Bytes)} (uncoded : Uncoded headers)
    (named : ∀ m ∈ ms, m.id ≠ "") (finite : ∀ m ∈ ms, m.value.isFinite)
    (fits : (Metric.listToJson ms).length ≤ server.maxBody) (memory : Memory) :
    server.ending (post headers "/updates/" (Metric.listToJson ms)) memory = stored ms memory :=
  ending_of_stores rfl (openPayload_uncoded unkeyed unpaired uncoded _ fits)
    (routed_post (by decide) headers _) rfl
    (stores_listToJson named finite fits inMemory instant memory)

theorem sendBy_eq {way : Way} (brings : way.Brings server.maxBody m) (named : m.id ≠ "")
    (finite : m.value.isFinite) (memory : Memory) :
    server.sendBy m memory way = stored [way.delivered m] memory := by
  have namedAll : ∀ m' ∈ [m], m'.id ≠ "" := List.forall_mem_singleton.2 named
  have finiteAll : ∀ m' ∈ [m], m'.value.isFinite := List.forall_mem_singleton.2 finite
  cases brings with
  | json uncoded fits =>
    exact ending_of_stores rfl (openPayload_uncoded unkeyed unpaired uncoded _ fits)
      (routed_post (by decide) _ _) rfl
      (stores_toJson named finite fits inMemory instant memory)
  | batch uncoded fits =>
    exact ending_updates inMemory instant unkeyed unpaired uncoded namedAll finiteAll fits memory
  | @path name escapes headers =>
    have writes := Value.writes_toText finite
    have trusted : ∀ tag, server.opening.authenticate tag [] = .ok [] := by
      intro tag
      rw [Envelope.Opening.authenticate, unkeyed]
    apply ending_of_stores rfl (openPayload_nil rfl (trusted _)) _ rfl
      (stores_updatePath [] escapes named writes inMemory instant memory)
    exact routed_updatePath (List.append_nil _).symm rfl escapes writes.nonempty writes.positional
  | @call metadata within =>
    simp only [sendBy, Call.arrived_sent within]
    exact serveCall_eq (m := ⟨m.id, m.value.carried⟩) inMemory unkeyed named
      ((Way.isFinite_delivered m (.call metadata)).trans finite) metadata memory

theorem respond_json (named : m.id ≠ "") (finite : m.value.isFinite)
    (done : (stored [m] memory).1 = .done) {headers : List (String × Bytes)}
    (uncoded : Uncoded headers) (fits : m.toJson.length ≤ server.maxBody) :
    ∃ found, Memory.get m.key (stored [m] memory).2 = .ok found ∧
      (server.respond (post headers "/update/" m.toJson) memory).1 =
        compress (post headers "/update/" m.toJson) (Response.json found.toJson) := by
  have opened := openPayload_uncoded unkeyed unpaired uncoded "/update/" fits
  have routed := routed_post (by decide : Route.ofPath? (post [] "/update/" []).path = some .update)
    headers m.toJson
  rcases stores_toJson named finite fits inMemory instant memory with
    ⟨-, taken, response, served, -, found, there, rfl⟩ | ⟨-, id, refused, -⟩
  · exact ⟨found, there, respond_unkeyed unkeyed rfl opened routed rfl served⟩
  · rw [stored_of_error (Prod.ext refused rfl)] at done
    cases done

end Ways

theorem stored_cons (m : Metric) (ms : List Metric) (memory : Memory) :
    stored (m :: ms) memory =
      match stored [m] memory with
      | (.done, next) => stored ms next
      | stopped => stopped := by
  rcases first : Memory.update m memory with ⟨fault | ⟨⟩, next⟩
  · have single : updateEach Memory.update [m] memory = (.error fault, next) := by
      rw [updateEach_singleton, first]
    rw [stored_of_error (updateEach_cons_error first ms), stored_of_error single]
  · have single : updateEach Memory.update [m] memory = (.ok (), next) := by
      rw [updateEach_singleton, first]
    rw [stored_of_ok single]
    simp only [stored, updateEach_cons_ok first]

theorem sendEach_eq {server : Server Memory} {memory : Memory} {sends : List (Way × Metric)}
    (each : ∀ send ∈ sends, ∀ memory,
      server.sendBy send.2 memory send.1 = stored [send.1.delivered send.2] memory) :
    server.sendEach sends memory =
      stored (sends.map fun send => send.1.delivered send.2) memory := by
  induction sends generalizing memory with
  | nil => rfl
  | cons send rest ih =>
    rw [List.forall_mem_cons] at each
    rw [List.map_cons, stored_cons, sendEach, each.1]
    rcases stored [send.1.delivered send.2] memory with ⟨ending, next⟩
    cases ending with
    | done => exact ih each.2
    | _ => rfl

/-- A metric with a name and a finite reading has one effect and one ending, whichever way it is
sent to a server without keys; on success its series is answered to the one that sent its JSON. And
a list that is sent as a whole ends as its metrics do that are sent one by one, each in any way, and
with the same state. All ways bring the metric as it is, but for negative zero: a call brings that
as zero. -/
theorem ways_agree (opening : Envelope.Opening) (unkeyed : opening.key = none)
    (unpaired : opening.privateKey = none) (maxBody timeout : Nat) :
    let server := Server.setUp Memory.storage opening maxBody timeout
    (∀ m memory, m.id ≠ "" → m.value.isFinite →
      ∃ ending, (ending = .done ∨ ending = .failed) ∧
        (ending = .failed ↔ memory.contents.Overflows [m]) ∧
        (∀ way : Way, way.Brings maxBody m →
          server.sendBy m memory way = (ending, (Memory.update (way.delivered m) memory).2)) ∧
        (ending = .done → ∀ headers, Uncoded headers → m.toJson.length ≤ maxBody →
          ∃ stored, Memory.get m.key (Memory.update m memory).2 = .ok stored ∧
            (server.respond (post headers "/update/" m.toJson) memory).1 =
              compress (post headers "/update/" m.toJson) (Response.json stored.toJson))) ∧
    (∀ (sends : List (Way × Metric)) headers memory,
      (∀ send ∈ sends, send.2.id ≠ "" ∧ send.2.value.isFinite ∧ send.1.Brings maxBody send.2) →
      let arrived := sends.map fun send => send.1.delivered send.2
      Uncoded headers → (Metric.listToJson arrived).length ≤ maxBody →
      server.sendEach sends memory =
        server.ending (post headers "/updates/" (Metric.listToJson arrived)) memory) ∧
    (∀ (m : Metric) (way : Way), way.delivered m = m ∨
      m.value = .gauge .negativeZero ∧ (∃ metadata, way = .call metadata) ∧
        way.delivered m = ⟨m.id, .gauge .zero⟩) ∧
    ∀ (m : Metric) name metadata, Escapes name m.id →
      (Url.pathText (.segments ["update", m.kind.name, name, m.value.toText])).utf8ByteSize <
        Net.Uri.lengthLimit → (Way.call metadata).Brings maxBody m := by
  intro server
  refine ⟨?_, ?_, Way.delivered_eq, fun m name metadata escapes short =>
    Way.brings_call escapes short metadata⟩
  · intro m memory named finite
    have single : ∀ m, (stored [m] memory).2 = (Memory.update m memory).2 := fun m =>
      congrArg Prod.snd (updateEach_singleton m memory)
    refine ⟨(stored [m] memory).1, ?_, ?_, ?_, ?_⟩
    · rcases stored_of_named (List.forall_mem_singleton.2 named) memory with ⟨-, done⟩ | ⟨-, failed⟩
      · exact .inl done
      · exact .inr failed
    · rcases stored_of_named (List.forall_mem_singleton.2 named) memory with
        ⟨fits, done⟩ | ⟨overflows, failed⟩
      · rw [done]
        exact ⟨nofun, fun overflows => absurd overflows fits⟩
      · exact ⟨fun _ => overflows, fun _ => failed⟩
    · intro way brings
      rw [sendBy_eq rfl rfl unkeyed unpaired brings named finite memory, ← single,
        ← stored_delivered named way memory]
    · intro done headers uncoded fits
      rw [← single]
      exact respond_json rfl rfl unkeyed unpaired named finite done uncoded fits
  · intro sends headers memory valid arrived uncoded fits
    have named : ∀ m ∈ arrived, m.id ≠ "" := by
      intro m member
      obtain ⟨send, inside, rfl⟩ := List.mem_map.1 member
      rw [Way.id_delivered]
      exact (valid send inside).1
    have finite : ∀ m ∈ arrived, m.value.isFinite := by
      intro m member
      obtain ⟨send, inside, rfl⟩ := List.mem_map.1 member
      rw [Way.isFinite_delivered]
      exact (valid send inside).2.1
    rw [ending_updates rfl rfl unkeyed unpaired uncoded named finite fits memory]
    apply sendEach_eq
    intro send inside memory
    obtain ⟨named, finite, brings⟩ := valid send inside
    exact sendBy_eq rfl rfl unkeyed unpaired brings named finite memory

/-- Negative zero under an id with a slash, by its JSON and by its path; and a list of counters, one
of them by a call. -/
theorem ways_agree_with_slash :
    let server := Server.setUp Memory.storage {} 1024 1000
    let m : Metric := ⟨"a/b", .gauge Binary64.negativeZero⟩
    let sends : List (Way × Metric) :=
      [(.path "a" [], ⟨"a", .counter 1⟩), (.call [], ⟨"a", .counter 2⟩)]
    server.sendBy m {} (.json []) =
      server.sendBy m {} (.path (Url.encode Url.plainSegment "a/b") []) ∧
      server.sendEach sends {} =
        server.ending
          (post [] "/updates/" (Metric.listToJson [⟨"a", .counter 1⟩, ⟨"a", .counter 2⟩])) {} := by
  intro server m sends
  obtain ⟨single, several, -, brought⟩ := ways_agree {} rfl rfl 1024 1000
  have uncoded : Uncoded [] := by
    unfold Uncoded
    decide
  have plain : Escapes "a" "a" := Url.escapes_of_same (by decide +kernel)
  obtain ⟨ending, -, -, ways, -⟩ := single m {} (by decide) rfl
  constructor
  · have byJson := ways (.json []) (.json uncoded (by decide +kernel))
    exact byJson.trans
      (ways _ (.path (Url.escapes_encode Url.staysInside_plainSegment "a/b") [])).symm
  · apply several sends [] {} _ uncoded (by decide +kernel)
    simp only [sends, List.forall_mem_cons]
    refine ⟨⟨by decide, rfl, .path plain []⟩, ⟨by decide, rfl, ?_⟩, nofun⟩
    exact brought _ "a" [] plain (by decide +kernel)

theorem negative_zero_apart :
    let server := Server.setUp Memory.storage {} 1024 1000
    let m : Metric := ⟨"a", .gauge .negativeZero⟩
    m.id ≠ "" ∧ m.value.isFinite ∧ (Way.json []).Brings 1024 m ∧ (Way.call []).Brings 1024 m ∧
      Memory.get m.key (server.sendBy m {} (.json [])).2 = .ok m ∧
      Memory.get m.key (server.sendBy m {} (.call [])).2 = .ok ⟨"a", .gauge .zero⟩ ∧
      server.sendBy m {} (.json []) ≠ server.sendBy m {} (.call []) := by
  intro server m
  have uncoded : Uncoded [] := by
    unfold Uncoded
    decide
  have json : (Way.json []).Brings 1024 m := .json uncoded (by decide +kernel)
  have call : (Way.call []).Brings 1024 m := .call (by decide +kernel)
  have named : m.id ≠ "" := by decide
  have byJson : server.sendBy m {} (.json []) = stored [m] {} :=
    sendBy_eq rfl rfl rfl rfl json named rfl {}
  have byCall : server.sendBy m {} (.call []) = stored [⟨"a", .gauge .zero⟩] {} :=
    sendBy_eq rfl rfl rfl rfl call named rfl {}
  have kept : Memory.get m.key (server.sendBy m {} (.json [])).2 = .ok m := by
    rw [byJson]
    rfl
  have lost : Memory.get m.key (server.sendBy m {} (.call [])).2 = .ok ⟨"a", .gauge .zero⟩ := by
    rw [byCall]
    rfl
  refine ⟨named, rfl, json, call, kept, lost, ?_⟩
  intro same
  rw [same, lost] at kept
  exact absurd kept (by decide)

end Telemetry.Server
