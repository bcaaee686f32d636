import Telemetry.Json.Skip

/-!
Lists and records. A record is written as an object, with its fields in any order and others among
them, or as an array of its fields in order.
-/
namespace Telemetry.Json

/-- What a look at the next part of an array or object finds: its end, or a part. -/
inductive Next where
  | done (rest : Bytes)
  | part (rest : Bytes)
  deriving Repr

def nextElement (first : Bool) (input : Bytes) : Except Fault Next :=
  match skipBlank input with
  | [] => .error .ended
  | 0x5d :: rest => .ok (.done rest)
  | b :: rest =>
    if first then .ok (.part (b :: rest))
    else if b = 0x2c then
      match skipBlank rest with
      | [] => .error .ended
      | 0x5d :: _ => .error .malformed
      | rest => .ok (.part rest)
    else .error .malformed

/-- Finds the next member of an object, from behind its key's opening quote on. -/
def nextMember (first : Bool) (input : Bytes) : Except Fault Next :=
  match skipBlank input with
  | [] => .error .ended
  | 0x7d :: rest => .ok (.done rest)
  | b :: rest =>
    if first then if b = 0x22 then .ok (.part rest) else .error .malformed
    else if b = 0x2c then
      match skipBlank rest with
      | [] => .error .ended
      | 0x22 :: rest => .ok (.part rest)
      | _ => .error .malformed
    else .error .malformed

def colon (input : Bytes) : Except Fault Bytes :=
  match skipBlank input with
  | [] => .error .ended
  | 0x3a :: rest => .ok rest
  | _ => .error .malformed

/-- The elements of an array up to its end; `done` are the ones before, last first. -/
def elements {α : Type} (read : Reader α) (first : Bool) (done : List α) : Reader (List α)
  | 0, _ => .error .malformed
  | bound + 1, input => do
    match ← nextElement first input with
    | .done rest => return (done.reverse, rest)
    | .part rest =>
      let (value, rest) ← read bound rest
      elements read false (value :: done) bound rest

def list {α : Type} (read : Reader α) : Reader (List α) := fun bound input =>
  onFirst
    (fun b rest =>
      if b = 0x5b then elements read true [] bound rest else .error (misfit b rest))
    bound input

structure Field (σ : Type) where
  name : String
  taken : σ → Bool
  read : Reader (σ → σ)

/-- The members of an object up to its end. A field may not come twice; other members are skipped.
-/
def members {σ : Type} (fields : List (Field σ)) (first : Bool) (record : σ) : Reader σ
  | 0, _ => .error .malformed
  | bound + 1, input => do
    match ← nextMember first input with
    | .done rest => return (record, rest)
    | .part rest =>
      let (name, rest) ← stringRest rest
      match fields.find? (·.name == name) with
      | some field =>
        if field.taken record then throw .unfit
        let (enter, rest) ← field.read bound (← colon rest)
        members fields false (enter record) bound rest
      | none =>
        let (_, rest) ← skip bound (← colon rest)
        members fields false record bound rest

/-- The fields of a record written as an array, of which the last ones may be left out. -/
def positional {σ : Type} (bound : Nat) (first : Bool) (record : σ) :
    List (Field σ) → Bytes → Except Fault (σ × Bytes)
  | [], input =>
    match skipBlank input with
    | [] => .error .ended
    | 0x5d :: rest => .ok (record, rest)
    | _ => .error .malformed
  | field :: fields, input => do
    match ← nextElement first input with
    | .done rest => return (record, rest)
    | .part rest =>
      let (enter, rest) ← field.read bound rest
      positional bound false (enter record) fields rest

/-- A record: its fields are read into `empty`, and what they make is judged at its closing bracket.
-/
def record {σ α : Type} (fields : List (Field σ)) (empty : σ) (finish : σ → Except Fault α) :
    Reader α := fun bound input =>
  onFirst (fun b rest => do
    let (filled, rest) ←
      if b = 0x7b then members fields true empty bound rest
      else if b = 0x5b then positional bound true empty fields rest
      else throw (misfit b rest)
    return (← finish filled, rest)) bound input

/-- A choice written as an object with one member, whose name says how the value is read. -/
def variant {α : Type} (choices : List (String × Reader α)) (bound : Nat) (input : Bytes) :
    Except Fault (α × Bytes) := do
  let (name, rest) ← text bound input
  match choices.lookup name with
  | none => throw .unfit
  | some read =>
    let (value, rest) ← read bound (← colon rest)
    match skipBlank rest with
    | [] => throw .ended
    | 0x7d :: rest => return (value, rest)
    | _ => throw .malformed

end Telemetry.Json
