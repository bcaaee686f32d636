import Telemetry.Proofs.Server.Updates
import Telemetry.Proofs.Url.Segment

namespace Telemetry.Server

open Url (Escapes)

variable {σ : Type}

theorem openPayload_nil {server : Server σ} {request : Request} (empty : request.body = [])
    (trusted : server.opening.authenticate (request.header? "hashsha256") [] = .ok []) :
    server.openPayload request = .ok [] := by
  have deciphered : server.opening.decipher [] = .ok [] := by
    rw [Envelope.Opening.decipher]
    cases server.opening.privateKey <;> rfl
  have inflated : server.opening.inflate (isGzipped request) [] = .ok [] := by
    rw [Envelope.Opening.inflate, List.isEmpty_nil, Bool.not_true, Bool.and_false]
    rfl
  have opened : server.opening.unseal [] (isGzipped request) (request.header? "hashsha256") =
      .ok [] := by
    rw [Envelope.Opening.unseal, deciphered, ok_bind, inflated, ok_bind, trusted]
  rw [openPayload, empty, opened]
  rfl

variable {m : Metric} {name value : String}

/-- The name and the value of a metric in a path are read as the metric. -/
theorem readPath_eq (escapes : Escapes name m.id) (named : m.id ≠ "")
    (writes : Value.Writes value m.value) :
    readPath m.kind.name name value = .ok m := by
  have kind : Kind.read m.kind.name = .ok m.kind := by rw [Kind.read, Kind.ofText?_name]
  have read : m.kind.readValue value = .ok m.value := writes.read
  simp only [readPath, decodeParameter, (Url.escapes_kind m.kind).decode, escapes.decode,
    (Url.escapes_positional writes.positional).decode, kind, read, mapError_ok, ok_bind,
    if_neg named]
  rfl

theorem routed_updatePath {request : Request} {rest : List Char} {kind : Kind} {id : String}
    (target : request.target.toList =
      (Url.pathText (.segments ["update", kind.name, name, value])).toList ++ rest)
    (stops : rest.takeWhile (fun c => c != '?' && c != '#') = []) (escapes : Escapes name id)
    (some : value ≠ "") (positional : ∀ c ∈ value.toList, Decimal.IsPositional c) :
    Route.ofPath? request.path = .some (.updatePath kind.name name value) := by
  have inside : ∀ segment ∈ ["update", kind.name, name, value], ∀ c ∈ segment.toList,
      Url.IsSegmentChar c := by
    simp only [List.forall_mem_cons]
    exact ⟨Url.escapes_update.inside, (Url.escapes_kind kind).inside, escapes.inside,
      (Url.escapes_positional positional).inside, nofun⟩
  rw [Route.ofPath?, Url.split_path target stops inside]
  simp only [if_neg some]

theorem unrouted_update {request : Request} {rest : List Char} {second decoded : String}
    (target : request.target.toList = (Url.pathText (.segments ["update", second, value])).toList ++
      rest)
    (stops : rest.takeWhile (fun c => c != '?' && c != '#') = []) (escapes : Escapes second decoded)
    (positional : ∀ c ∈ value.toList, Decimal.IsPositional c) :
    Route.ofPath? request.path = none := by
  have inside :
      ∀ segment ∈ ["update", second, value], ∀ c ∈ segment.toList, Url.IsSegmentChar c := by
    simp only [List.forall_mem_cons]
    exact ⟨Url.escapes_update.inside, escapes.inside, (Url.escapes_positional positional).inside,
      nofun⟩
  rw [Route.ofPath?, Url.split_path target stops inside]
  simp

theorem stores_updatePath {server : Server Memory} (plain : Bytes) (escapes : Escapes name m.id)
    (named : m.id ≠ "") (writes : Value.Writes value m.value)
    (inMemory : server.storage = Memory.storage) (instant : server.writeTime = 0)
    (memory : Memory) :
    server.Stores (.updatePath m.kind.name name value) plain [m]
      (fun _ response => response = Response.text 200 "OK") memory := by
  have namedAll : ∀ m' ∈ [m], m'.id ≠ "" := List.forall_mem_singleton.2 named
  apply stores_of_serve namedAll inMemory instant
  · rw [serve, readPath_eq escapes named writes]
    rfl
  · intro _
    exact ⟨_, rfl, rfl, rfl⟩

/-! ### What is left alone -/

section Refusals

variable {server : Server σ} {request : Request} {plain : Bytes} {state : σ}

theorem respond_unrouted (opened : server.openPayload request = .ok plain)
    (unrouted : Route.ofPath? request.path = none) (isPost : request.method = "POST") :
    (server.respond request state).1.status = 404 ∧ (server.respond request state).2 = state := by
  have received :
      server.receive request none state = (server.signResponse { status := 404 }, state) := by
    rw [receive, if_pos isPost, opened]
    rfl
  constructor
  · rw [status_respond, unrouted, received]
    rfl
  · rw [respond, unrouted]
    simp only [received]

theorem respond_nameless (opened : server.openPayload request = .ok plain) {kind : Kind}
    (routed : Route.ofPath? request.path = some (.updatePath kind.name "" value))
    (isPost : request.method = "POST") {decoded : String}
    (readable : Route.decode "value" value = .ok decoded) :
    (server.respond request state).1.status = 404 ∧ (server.respond request state).2 = state := by
  have known : Kind.read kind.name = .ok kind := by rw [Kind.read, Kind.ofText?_name]
  have nameless : Route.decode "name" "" = .ok "" := by decide
  have refused : readPath kind.name "" value = .error (.notFound "metric name is required") := by
    simp only [readPath, decodeParameter, (Url.escapes_kind kind).decode, nameless, readable, known,
      mapError_ok, ok_bind, if_true]
    rfl
  have served : server.serve (.updatePath kind.name "" value) plain state =
      (.error (.notFound "metric name is required"), state) := by
    rw [serve, refused]
    rfl
  have received : server.receive request (some (.updatePath kind.name "" value)) state =
      (server.signResponse (ApiFault.notFound "metric name is required").response, state) := by
    rw [receive, if_pos isPost, opened, isPost]
    simp only [answer, Route.accepts, Route.isLookup, served]
    rfl
  constructor
  · rw [status_respond, routed, received]
    rfl
  · rw [respond, routed]
    simp only [received]

end Refusals

/-! ### What is updated -/

/-- A metric lands: no series but its own is touched, which takes the reading of a gauge; a delta is
added to it, unless the sum leaves the 64-bit range, which is a failure. -/
structure Lands (server : Server Memory) (request : Request) (m : Metric) (memory : Memory) :
    Prop where
  others : ∀ key, key ≠ m.key →
    Memory.get key (server.respond request memory).2 = Memory.get key memory
  own : match m.value with
    | .gauge _ => (server.respond request memory).1.status = 200 ∧
        Memory.get m.key (server.respond request memory).2 = .ok m
    | .counter delta =>
      match Memory.sum? (memory.contents.total m.id) delta with
      | some sum => (server.respond request memory).1.status = 200 ∧
          Memory.get m.key (server.respond request memory).2 = .ok ⟨m.id, .counter sum⟩
      | none => (server.respond request memory).1.status = 500 ∧
      (server.respond request memory).2 = memory

section Landing

variable {server : Server Memory} {request : Request} {answers : Memory → Bytes → Prop}
  {memory : Memory}
  (takes : server.Takes request [m] answers memory)
include takes

theorem Takes.status :
    ((Memory.update m memory).1 = .ok () → (server.respond request memory).1.status = 200) ∧
    ∀ fault, (Memory.update m memory).1 = .error fault →
      (server.respond request memory).1.status = 500 := by
  have succeeds := takes.succeeds
  have fails := takes.fails
  rw [updateEach_singleton] at succeeds fails
  by_cases overflows : memory.contents.Overflows [m]
  · obtain ⟨⟨id, refused⟩, status⟩ := fails overflows
    rw [refused]
    exact ⟨nofun, fun _ _ => status⟩
  · obtain ⟨taken, status, -⟩ := succeeds overflows
    rw [taken]
    exact ⟨fun _ => status, nofun⟩

theorem Takes.lands (named : m.id ≠ "") : server.Lands request m memory := by
  have applied := takes.applied
  have status := takes.status
  rw [updateEach_singleton] at applied
  refine ⟨?_, ?_⟩
  · intro key other
    rw [applied, Memory.get_update_of_ne other]
  · obtain ⟨id, value⟩ := m
    cases value with
    | gauge reading =>
      rw [Memory.update_gauge named rfl] at status applied
      refine ⟨status.1 rfl, ?_⟩
      rw [applied, Memory.get_eq_ok_iff]
      exact ⟨_, (Memory.lookup_put_gauge memory id reading _).trans (if_pos rfl), rfl⟩
    | counter delta =>
      rw [Memory.update_counter named rfl] at status applied
      rw [Memory.total_contents]
      dsimp only at status applied ⊢
      cases sum : Memory.sum? ((memory.counters.get? id).getD 0) delta with
      | some sum' =>
        rw [sum] at status applied
        refine ⟨status.1 rfl, ?_⟩
        rw [applied, Memory.get_eq_ok_iff]
        exact ⟨_, (Memory.lookup_put_counter memory id sum' _).trans (if_pos rfl), rfl⟩
      | none =>
        rw [sum] at status applied
        exact ⟨status.2 _ rfl, applied⟩

end Landing

end Telemetry.Server
