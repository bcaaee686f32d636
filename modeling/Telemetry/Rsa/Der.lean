import Telemetry.Bytes

namespace Telemetry.Der

def bigEndian (bytes : Bytes) : Nat := bytes.foldl (fun n b => 256 * n + b.toNat) 0

/-- The length ahead and the bytes after it. A long form must be needed. -/
def length? : Bytes → Option (Nat × Bytes)
  | [] => none
  | b :: rest =>
    if b < 0x80 then some (b.toNat, rest)
    else
      let size := b.toNat - 0x80
      let written := rest.take size
      let n := bigEndian written
      if 1 ≤ size ∧ size ≤ 4 ∧ written.length = size ∧ 0x80 ≤ n ∧ Nat.pow 256 (size - 1) ≤ n then
        some (n, rest.drop size)
      else none

/-- The content of the value ahead, which has this tag, and the bytes after it. -/
def value? (tag : UInt8) : Bytes → Option (Bytes × Bytes)
  | [] => none
  | t :: rest => do
    guard (t = tag)
    let (size, rest) ← length? rest
    guard (size ≤ rest.length)
    return (rest.take size, rest.drop size)

def natural? (input : Bytes) : Option (Nat × Bytes) := do
  let (content, rest) ← value? 0x02 input
  match content with
  | [] => none
  | [b] => guard (b < 0x80)
  | a :: b :: _ => guard (a < 0x80 ∧ (a ≠ 0 ∨ 0x80 ≤ b))
  return (bigEndian content, rest)

def sequence? (input : Bytes) : Option Bytes := do
  let (content, rest) ← value? 0x30 input
  guard rest.isEmpty
  return content

def naturals? : Nat → Bytes → Option (List Nat)
  | 0, input => if input.isEmpty then some [] else none
  | count + 1, input => do
    let (n, rest) ← natural? input
    return n :: (← naturals? count rest)

end Telemetry.Der
