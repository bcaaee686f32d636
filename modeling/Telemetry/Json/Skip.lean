import Telemetry.Json.Reader

namespace Telemetry.Json

inductive Bracket where
  | array
  | object
  deriving DecidableEq, Repr

/-- Skips a value that is no array and no object, from its first byte on. -/
def skipScalar (b : UInt8) (rest : Bytes) : Except Fault Bytes :=
  if b = 0x22 then skipString rest
  else if beginsNumber b then skipNumber (b :: rest)
  else
    match literalAfter b with
    | some word => literal word rest
    | none => .error .malformed

def skipKey (input : Bytes) : Except Fault Bytes :=
  match skipBlank input with
  | [] => .error .ended
  | 0x22 :: rest => do
    match skipBlank (← skipString rest) with
    | 0x3a :: rest => return rest
    | [] => throw .ended
    | _ => throw .malformed
  | _ => .error .malformed

/-- Goes on to the next member of the innermost open bracket, closing those that end. `afterMember`
says whether a member has just been read, so that a comma may follow. -/
def skipToMember (bound : Nat) (afterMember : Bool) (stack : List Bracket) (input : Bytes) :
    Except Fault (List Bracket × Bytes) :=
  match bound, stack with
  | _, [] => .ok ([], input)
  | 0, _ => .error .malformed
  | bound + 1, top :: below =>
    match skipBlank input with
    | [] => .error .ended
    | b :: rest =>
      let enter (rest : Bytes) : Except Fault (List Bracket × Bytes) :=
        match top with
        | .array => .ok (top :: below, rest)
        | .object => (skipKey rest).map (top :: below, ·)
      if b = 0x2c ∧ afterMember then enter rest
      else if b = 0x5d ∧ top = .array ∨ b = 0x7d ∧ top = .object then
        skipToMember bound true below rest
      else if afterMember then .error .malformed
      else enter (b :: rest)

def skipValues : Nat → List Bracket → Bytes → Except Fault Bytes
  | 0, _, _ => .error .malformed
  | bound + 1, stack, input => do
    match skipBlank input with
    | [] => throw .ended
    | b :: rest =>
      let (stack, rest) ← if b = 0x5b then skipToMember (bound + 1) false (.array :: stack) rest
        else if b = 0x7b then skipToMember (bound + 1) false (.object :: stack) rest
        else do skipToMember (bound + 1) true stack (← skipScalar b rest)
      if stack.isEmpty then return rest else skipValues bound stack rest

def skip : Reader Unit := fun bound input => (skipValues bound [] input).map ((), ·)

end Telemetry.Json
