import Telemetry.Bytes

namespace Telemetry.Gzip

/-- Why inflation stops before the end of the data: the stream ends early, or it breaks a rule. -/
inductive Halt where
  | truncated
  | broken
  deriving DecidableEq, Repr

structure Bits where
  pending : List Bool
  rest : Bytes
  deriving Repr

namespace Bits

def bitsOf (b : UInt8) : List Bool := (List.range 8).map fun i => b.toNat.testBit i

def next (bits : Bits) : Except Halt (Bool × Bits) :=
  match bits.pending with
  | bit :: pending => .ok (bit, ⟨pending, bits.rest⟩)
  | [] =>
    match bits.rest with
    | [] => .error .truncated
    | b :: rest => .ok (b.toNat.testBit 0, ⟨(bitsOf b).tail, rest⟩)

def number : Nat → Bits → Except Halt (Nat × Bits)
  | 0, bits => .ok (0, bits)
  | n + 1, bits => do
    let (bit, bits) ← bits.next
    let (high, bits) ← number n bits
    return (2 * high + bit.toNat, bits)

def align (bits : Bits) : Bits := { bits with pending := [] }

end Bits

/-- A canonical prefix code: how many codes there are of each length from one bit on, and the
symbols in the order of their codes. -/
structure Code where
  counts : List Nat
  symbols : Array Nat
  deriving Repr

namespace Code

def maxLength : Nat := 15

/-- The code in which the symbols have these lengths, zero for a symbol that does not occur. -/
def ofLengths (lengths : List Nat) : Code :=
  let positions := (List.range maxLength).map (· + 1)
  ⟨positions.map fun n => lengths.count n,
    (positions.flatMap fun n => (lengths.zipIdx.filter (·.1 == n)).map (·.2)).toArray⟩

/-- The share of all bit sequences that begin with a code, in units of the longest codes. -/
def share (code : Code) : Nat :=
  code.counts.foldl (fun sum n => 2 * sum + n) 0

def isComplete (code : Code) : Bool := code.share == Nat.pow 2 maxLength

def decodeFrom (symbols : Array Nat) : List Nat → Nat → Nat → Nat → Bits → Except Halt (Nat × Bits)
  | [], _, _, _, _ => .error .broken
  | count :: counts, value, first, index, bits => do
    let (bit, bits) ← bits.next
    let value := 2 * value + bit.toNat
    let first := 2 * first
    if value < first + count then
      match symbols[index + (value - first)]? with
      | some symbol => return (symbol, bits)
      | none => throw .broken
    else decodeFrom symbols counts value (first + count) (index + count) bits

def decode (code : Code) (bits : Bits) : Except Halt (Nat × Bits) :=
  decodeFrom code.symbols code.counts 0 0 0 bits

end Code
end Telemetry.Gzip
