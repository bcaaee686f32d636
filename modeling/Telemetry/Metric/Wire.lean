import Telemetry.Json.Record
import Telemetry.Json.Writer
import Telemetry.Metric.Basic

/-!
Metrics in JSON. The wire record has an id, a type and the field that the type calls for: `value`
for a gauge, `delta` for a counter. The type is kept as text, so that a record of an unknown type
can be read and then refused.
-/
namespace Telemetry

structure Wire where
  id : String
  type : String
  value : Option Binary64
  delta : Option Int64
  deriving DecidableEq, Repr

namespace Wire

/-- The series that the record is about; whether it carries a value does not matter. -/
def key (wire : Wire) : Except Invalid Key :=
  if wire.id = "" then .error .emptyId else (Kind.read wire.type).map (⟨wire.id, ·⟩)

def toMetric (wire : Wire) : Except Invalid Metric := do
  let key ← wire.key
  let value := match key.kind with
    | .gauge => wire.value.map Value.gauge
    | .counter => wire.delta.map Value.counter
  match value with
  | some value => return ⟨key.id, value⟩
  | none => throw (.missingValue key.id key.kind)

def ofMetric (m : Metric) : Wire :=
  match m.value with
  | .gauge reading => ⟨m.id, m.kind.name, some reading, none⟩
  | .counter delta => ⟨m.id, m.kind.name, none, some delta⟩

def toJson (wire : Wire) : Bytes :=
  Json.object ([("id", Json.quoted wire.id), ("type", Json.quoted wire.type)]
    ++ (wire.value.map fun v => ("value", Json.ofBinary64 v)).toList
    ++ (wire.delta.map fun d => ("delta", Json.ofInt64 d)).toList)

structure Draft where
  id : Option String := none
  type : Option String := none
  value : Option (Option Binary64) := none
  delta : Option (Option Int64) := none

def fields : List (Json.Field Draft) := [
  ⟨"id", (·.id.isSome), Json.mapped (fun v draft => { draft with id := some v }) Json.text⟩,
  ⟨"type", (·.type.isSome), Json.mapped (fun v draft => { draft with type := some v }) Json.text⟩,
  ⟨"value", (·.value.isSome),
    Json.mapped (fun v draft => { draft with value := some v }) (Json.optional Json.binary64)⟩,
  ⟨"delta", (·.delta.isSome),
    Json.mapped (fun v draft => { draft with delta := some v }) (Json.optional Json.int64)⟩]

/-- A record lacks nothing but its value, which only its type can ask for. -/
def Draft.finish (draft : Draft) : Except Json.Fault Wire :=
  match draft.id, draft.type with
  | some id, some type => .ok ⟨id, type, draft.value.getD none, draft.delta.getD none⟩
  | _, _ => .error .unfit

def ofJson : Json.Reader Wire := Json.record fields {} Draft.finish

end Wire

namespace Metric

def toJson (m : Metric) : Bytes := (Wire.ofMetric m).toJson

def listToJson (ms : List Metric) : Bytes := Json.array (ms.map toJson)

/-- Reads a wire record and refuses one that is no valid metric at its closing bracket. -/
def ofJson : Json.Reader Metric := fun bound input => do
  let (wire, rest) ← Wire.ofJson bound input
  match wire.toMetric with
  | .ok m => return (m, rest)
  | .error _ => throw .unfit

end Metric

namespace Kind

def toJson (kind : Kind) : Bytes := Json.quoted kind.name

/-- A kind by its name, or as the only member of an object with `null`. -/
def ofJson : Json.Reader Kind := fun bound =>
  Json.onFirst (fun b rest =>
    if b = 0x22 then do
      let (name, rest) ← Json.stringRest rest
      match ofName? name with
      | some kind => return (kind, rest)
      | none => throw .unfit
    else if b = 0x7b then Json.variant [unit .gauge, unit .counter] bound rest
    else .error .malformed) bound
where
  unit (kind : Kind) : String × Json.Reader Kind :=
    (kind.name, Json.mapped (fun () => kind) Json.null)

end Kind

namespace Value

def toJson : Value → Bytes
  | gauge reading => Json.object [(Kind.gauge.name, Json.ofBinary64 reading)]
  | counter delta => Json.object [(Kind.counter.name, Json.ofInt64 delta)]

/-- A value as the only member of an object, under the name of its kind. -/
def ofJson : Json.Reader Value := fun bound =>
  Json.onFirst (fun b rest =>
    if b = 0x22 then do
      let _ ← Json.stringRest rest
      throw .unfit
    else if b = 0x7b then
      Json.variant [
        (Kind.gauge.name, Json.mapped gauge Json.binary64),
        (Kind.counter.name, Json.mapped counter Json.int64)] bound rest
    else .error .malformed) bound

end Value

namespace Key

def toJson (key : Key) : Bytes :=
  Json.object [("id", Json.quoted key.id), ("kind", key.kind.toJson)]

structure Draft where
  id : Option String := none
  kind : Option Kind := none

def fields : List (Json.Field Draft) := [
  ⟨"id", (·.id.isSome), Json.mapped (fun v draft => { draft with id := some v }) Json.text⟩,
  ⟨"kind", (·.kind.isSome), Json.mapped (fun v draft => { draft with kind := some v }) Kind.ofJson⟩]

def Draft.finish (draft : Draft) : Except Json.Fault Key :=
  match draft.id, draft.kind with
  | some id, some kind => .ok ⟨id, kind⟩
  | _, _ => .error .unfit

def ofJson : Json.Reader Key := Json.record fields {} Draft.finish

end Key
end Telemetry
