import Telemetry.Gzip.Code

/-!
Inflation of deflate data: stored blocks, blocks of fixed codes and blocks that bring their codes. A
run keeps what it has written so far when it stops, so that a reader who wants only part of the data
can be served by the same run.
-/
namespace Telemetry.Gzip

structure Progress where
  bits : Bits
  output : Array UInt8
  deriving Repr

/-- What inflation has written when it ends, and how it ends: with the bytes after the data, or
early. -/
structure Run where
  output : Bytes
  ending : Except Halt Bytes
  deriving Repr

/-- A part of a run: it goes on, or it stops with what is written by then. -/
abbrev Stage := Except (Array UInt8 × Halt) Progress

def Progress.read {α : Type} (p : Progress) (reader : Bits → Except Halt (α × Bits)) :
    Except (Array UInt8 × Halt) (α × Progress) :=
  match reader p.bits with
  | .ok (value, bits) => .ok (value, { p with bits })
  | .error halt => .error (p.output, halt)

/-- Base and number of extra bits of the match lengths, from symbol 257 on. -/
def lengthTable : Array (Nat × Nat) := #[
  (3, 0), (4, 0), (5, 0), (6, 0), (7, 0), (8, 0), (9, 0), (10, 0), (11, 1), (13, 1), (15, 1),
  (17, 1), (19, 2), (23, 2), (27, 2), (31, 2), (35, 3), (43, 3), (51, 3), (59, 3), (67, 4),
  (83, 4), (99, 4), (115, 4), (131, 5), (163, 5), (195, 5), (227, 5), (258, 0)]

def distanceTable : Array (Nat × Nat) := #[
  (1, 0), (2, 0), (3, 0), (4, 0), (5, 1), (7, 1), (9, 2), (13, 2), (17, 3), (25, 3), (33, 4),
  (49, 4), (65, 5), (97, 5), (129, 6), (193, 6), (257, 7), (385, 7), (513, 8), (769, 8),
  (1025, 9), (1537, 9), (2049, 10), (3073, 10), (4097, 11), (6145, 11), (8193, 12), (12289, 12),
  (16385, 13), (24577, 13)]

def extended (table : Array (Nat × Nat)) (index : Nat) (bits : Bits) : Except Halt (Nat × Bits) :=
  match table[index]? with
  | none => .error .broken
  | some (base, extra) => do
    let (more, bits) ← bits.number extra
    return (base + more, bits)

/-- Repeats `length` bytes from `distance` bytes back, the new ones included. -/
def copy (output : Array UInt8) (distance : Nat) : Nat → Array UInt8
  | 0 => output
  | length + 1 => copy (output.push (output.getD (output.size - distance) 0)) distance length

/-- The symbols of a block up to its end. Every symbol takes at least one bit. -/
def symbols (literals distances : Code) : Nat → Progress → Stage
  | 0, p => .error (p.output, .broken)
  | bound + 1, p => do
    let (symbol, p) ← p.read literals.decode
    if symbol < 256 then
      symbols literals distances bound { p with output := p.output.push symbol.toUInt8 }
    else if symbol = 256 then return p
    else
      let (length, p) ← p.read (extended lengthTable (symbol - 257))
      let (index, p) ← p.read distances.decode
      let (distance, p) ← p.read (extended distanceTable index)
      if p.output.size < distance then throw (p.output, .broken)
      symbols literals distances bound { p with output := copy p.output distance length }

def fixedLiterals : Code := .ofLengths
  (List.replicate 144 8 ++ List.replicate 112 9 ++ List.replicate 24 7 ++ List.replicate 8 8)

def fixedDistances : Code := .ofLengths (List.replicate 32 5)

def lengthOrder : List Nat := [16, 17, 18, 0, 8, 7, 9, 6, 10, 5, 11, 4, 12, 3, 13, 2, 14, 1, 15]

def metaLengths : Nat → Bits → Except Halt (List Nat × Bits)
  | 0, bits => .ok ([], bits)
  | n + 1, bits => do
    let (length, bits) ← bits.number 3
    let (rest, bits) ← metaLengths n bits
    return (length :: rest, bits)

/-- Code lengths in their run-length form; `done` are those before, last first. -/
def codeLengths (code : Code) (total : Nat) : Nat → List Nat → Bits → Except Halt (List Nat × Bits)
  | 0, _, _ => .error .broken
  | bound + 1, done, bits => do
    if done.length = total then return (done.reverse, bits)
    else if total < done.length then throw .broken
    else
      let (symbol, bits) ← code.decode bits
      if symbol < 16 then codeLengths code total bound (symbol :: done) bits
      else if symbol = 16 then
        match done with
        | [] => throw .broken
        | last :: _ =>
          let (more, bits) ← bits.number 2
          codeLengths code total bound (List.replicate (3 + more) last ++ done) bits
      else if symbol = 17 then
        let (more, bits) ← bits.number 3
        codeLengths code total bound (List.replicate (3 + more) 0 ++ done) bits
      else
        let (more, bits) ← bits.number 7
        codeLengths code total bound (List.replicate (11 + more) 0 ++ done) bits

/-- A code is usable if it is complete; one that has a single symbol need not be. -/
def usable (code : Code) : Bool := code.isComplete || code.symbols.size ≤ 1

def dynamicCodes (bits : Bits) : Except Halt ((Code × Code) × Bits) := do
  let (literalCount, bits) ← bits.number 5
  let (distanceCount, bits) ← bits.number 5
  let (metaCount, bits) ← bits.number 4
  let literalCount := literalCount + 257
  let distanceCount := distanceCount + 1
  if 286 < literalCount ∨ 30 < distanceCount then throw .broken
  let (lengths, bits) ← metaLengths (metaCount + 4) bits
  let metaCode := Code.ofLengths ((List.range 19).map fun symbol =>
    ((lengthOrder.zip lengths).lookup symbol).getD 0)
  if !metaCode.isComplete then throw .broken
  let total := literalCount + distanceCount
  let (lengths, bits) ← codeLengths metaCode total (total + 1) [] bits
  let literals := Code.ofLengths (lengths.take literalCount)
  let distances := Code.ofLengths (lengths.drop literalCount)
  if usable literals && usable distances then return ((literals, distances), bits)
  else throw .broken

/-- A stored block: its length, the length's complement, and so many bytes as they are. -/
def stored (p : Progress) : Stage := do
  let (length, p) ← { p with bits := p.bits.align }.read (Bits.number 16)
  let (complement, p) ← p.read (Bits.number 16)
  if length + complement ≠ 0xffff then throw (p.output, .broken)
  let taken := p.bits.rest.take length
  let output := p.output ++ taken.toArray
  if taken.length < length then throw (output, .truncated)
  return ⟨⟨[], p.bits.rest.drop length⟩, output⟩

def blocks : Nat → Progress → Stage
  | 0, p => .error (p.output, .broken)
  | bound + 1, p => do
    let (last, p) ← p.read Bits.next
    let (kind, p) ← p.read (Bits.number 2)
    let p ←
      if kind = 0 then stored p
      else if kind = 1 then symbols fixedLiterals fixedDistances (8 * p.bits.rest.length + 8) p
      else if kind = 2 then do
        let ((literals, distances), p) ← p.read dynamicCodes
        symbols literals distances (8 * p.bits.rest.length + 8) p
      else throw (p.output, .broken)
    if last then return p else blocks bound p

def inflate (input : Bytes) : Run :=
  match blocks (8 * input.length + 1) ⟨⟨[], input⟩, #[]⟩ with
  | .ok p => ⟨p.output.toList, .ok p.bits.rest⟩
  | .error (output, halt) => ⟨output.toList, .error halt⟩

/-- Output is handed on in windows of 32 KiB, and a window in which the data turn out broken is
lost. -/
def Run.delivered (run : Run) : Nat :=
  match run.ending with
  | .error .broken => run.output.length - run.output.length % 0x8000
  | _ => run.output.length

end Telemetry.Gzip
