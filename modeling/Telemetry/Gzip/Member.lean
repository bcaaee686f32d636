import Telemetry.Gzip.Checksum
import Telemetry.Gzip.Inflate

/-!
Gzip members: a header, deflate data, and the checksum and length of what they hold. A member can be
unpacked whole or within a limit on its size.
-/
namespace Telemetry.Gzip

inductive Fault where
  | corrupt
  | tooLarge (limit : Nat)
  /-- There is no number after the limit in 64 bits, and the program stops with nothing read. -/
  | overflow
  deriving DecidableEq, Repr

/-- The text after a field that ends with a zero byte; it is at most 65535 bytes long. -/
def skipField (input : Bytes) : Option Bytes :=
  let field := input.takeWhile (· != 0)
  if field.length ≤ 65535 then
    match input.drop field.length with
    | _ :: rest => some rest
    | [] => none
  else none

def littleEndian : Bytes → Nat
  | [] => 0
  | b :: rest => b.toNat + 256 * littleEndian rest

def skipExtra : Bytes → Option Bytes
  | a :: b :: rest =>
    let size := littleEndian [a, b]
    if rest.length < size then none else some (rest.drop size)
  | _ => none

def checkHeader (input : Bytes) : Bytes → Option Bytes
  | a :: b :: rest =>
    let header := input.take (input.length - (rest.length + 2))
    if littleEndian [a, b] = (checksum header).toNat % 0x10000 then some rest else none
  | _ => none

/-- The deflate data and what follows them, if the input begins with a member's header. -/
def skipHeader (input : Bytes) : Option Bytes := do
  match input with
  | 0x1f :: 0x8b :: 0x08 :: flags :: _ :: _ :: _ :: _ :: _ :: _ :: rest =>
    let has (bit : Nat) : Bool := flags.toNat.testBit bit
    guard (!(has 5 || has 6 || has 7))
    let rest ← if has 2 then skipExtra rest else some rest
    let rest ← if has 3 then skipField rest else some rest
    let rest ← if has 4 then skipField rest else some rest
    if has 1 then checkHeader input rest else some rest
  | _ => none

/-- Whether the bytes after the deflate data give the checksum and the length of what they hold. -/
def trailerMatches (output rest : Bytes) : Bool :=
  let trailer := rest.take 8
  trailer.length == 8 && littleEndian (trailer.take 4) == (checksum output).toNat
    && littleEndian (trailer.drop 4) == output.length % 0x100000000

def Run.content (run : Run) : Except Fault Bytes :=
  match run.ending with
  | .ok rest => if trailerMatches run.output rest then .ok run.output else .error .corrupt
  | .error _ => .error .corrupt

/-- Unpacks the first member of the input; what follows it is not looked at. -/
def unpack (input : Bytes) : Except Fault Bytes :=
  match skipHeader input with
  | some data => (inflate data).content
  | none => .error .corrupt

/-- Unpacks the first member, refusing to go on when more than `limit` bytes come out. The number of
bytes to be read, one more than the limit, is found first. -/
def unpackWithin (limit : Nat) (input : Bytes) : Except Fault Bytes :=
  if 0xffffffffffffffff ≤ limit then .error .overflow
  else
    match skipHeader input with
    | none => .error .corrupt
    | some data =>
      let run := inflate data
      if limit < run.delivered then .error (.tooLarge limit) else run.content

def header : Bytes := [0x1f, 0x8b, 0x08, 0, 0, 0, 0, 0, 0, 0xff]

def toLittleEndian (width n : Nat) :
    Bytes := (List.range width).map fun i => (n / Nat.pow 256 i % 256).toUInt8

def storedBlocks : Nat → Bytes → Bytes
  | 0, _ => []
  | bound + 1, input =>
    let part := input.take 65535
    let rest := input.drop 65535
    (if rest.isEmpty then 1 else 0) :: (toLittleEndian 2 part.length
      ++ toLittleEndian 2 (65535 - part.length) ++ part
      ++ if rest.isEmpty then [] else storedBlocks bound rest)

def pack (input : Bytes) : Bytes :=
  header ++ storedBlocks (input.length / 65535 + 1) input
    ++ toLittleEndian 4 (checksum input).toNat ++ toLittleEndian 4 (input.length % 0x100000000)

end Telemetry.Gzip
