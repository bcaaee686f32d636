import Telemetry.Rpc.Call

/-!
The messages of calls in bytes. A message is a sequence of fields, each with a number and what it
holds; a call's are its name in the first field and its value in the second. A field that equals its
default is not written, and one that is not there is read as the default.
-/
namespace Telemetry

namespace Binary64

def signBit : Nat := 0x8000000000000000

/-- The 64 bits of a number; of all that are no number it is the quiet one without a payload. -/
def toBits : Binary64 → Nat
  | .nan => 0x7ff8000000000000
  | .infinite negative => (if negative then signBit else 0) + places
  | .finite negative place => (if negative then signBit else 0) + place.val

def ofBits (bits : Nat) : Binary64 :=
  if places < bits % signBit then .nan else .ofPlace (signBit ≤ bits) (bits % signBit)

end Binary64

namespace Message

/-- What a field holds: a number in groups of seven bits, bytes, or a number of eight or four bytes.
-/
inductive Content where
  | varint (n : Nat)
  | bytes (list : Bytes)
  | fixed64 (n : Nat)
  | fixed32 (n : Nat)
  deriving DecidableEq, Repr

abbrev Field := Nat × Content

def limit : Nat := 0x400000

/-- Groups of seven bits, the lowest first; all but the last are marked. -/
def groups : Nat → Nat → Bytes
  | 0, _ => []
  | more + 1, n => if n < 128 then [n.toUInt8] else (n % 128 + 128).toUInt8 :: groups more (n / 128)

def varint (n : Nat) : Bytes := groups 10 n

def littleEndian : Nat → Nat → Bytes
  | 0, _ => []
  | width + 1, n => n.toUInt8 :: littleEndian width (n / 256)

namespace Content

def form : Content → Nat
  | varint _ => 0
  | fixed64 _ => 1
  | bytes _ => 2
  | fixed32 _ => 5

def write : Content → Bytes
  | varint n => Message.varint n
  | fixed64 n => littleEndian 8 n
  | bytes list => Message.varint list.length ++ list
  | fixed32 n => littleEndian 4 n

end Content

def writeField (field : Field) : Bytes := varint (field.1 * 8 + field.2.form) ++ field.2.write

def nameField (name : String) : List Field :=
  if name = "" then [] else [(1, .bytes (Bytes.ofText name))]

def valueField : Value → List Field
  | .gauge reading => if reading.isZero then [] else [(2, .fixed64 reading.toBits)]
  | .counter delta => if delta = 0 then [] else [(2, .varint delta.toUInt64.toNat)]

def write (name : String) (value : Value) :
    Bytes := (nameField name ++ valueField value).flatMap writeField

/-! ### Reading -/

def readGroups : Nat → Bytes → Option (Nat × Bytes)
  | more + 1, b :: rest =>
    if b < 0x80 then some (b.toNat, rest)
    else (readGroups more rest).map fun (n, rest) => (b.toNat - 128 + 128 * n, rest)
  | _, _ => none

def readVarint (bytes : Bytes) : Option (Nat × Bytes) :=
  (readGroups 10 bytes).filter (·.1 < 0x10000000000000000)

def ofLittleEndian : Bytes → Nat
  | [] => 0
  | b :: rest => b.toNat + 256 * ofLittleEndian rest

def takeBytes (length : Nat) (bytes : Bytes) : Option (Bytes × Bytes) :=
  if bytes.length < length then none else some (bytes.take length, bytes.drop length)

def readContent (form : Nat) (bytes : Bytes) : Option (Content × Bytes) :=
  match form with
  | 0 => do
    let (n, rest) ← readVarint bytes
    return (.varint n, rest)
  | 1 => do
    let (list, rest) ← takeBytes 8 bytes
    return (.fixed64 (ofLittleEndian list), rest)
  | 2 => do
    let (length, rest) ← readVarint bytes
    let (list, rest) ← takeBytes length rest
    return (.bytes list, rest)
  | 5 => do
    let (list, rest) ← takeBytes 4 bytes
    return (.fixed32 (ofLittleEndian list), rest)
  | _ => none

def readField (bytes : Bytes) : Option (Field × Bytes) := do
  let (key, rest) ← readVarint bytes
  if key / 8 = 0 ∨ 0x100000000 ≤ key then none
  let (content, rest) ← readContent (key % 8) rest
  return ((key / 8, content), rest)

def readFields : Nat → Bytes → Option (List Field)
  | _, [] => some []
  | 0, _ => none
  | bound + 1, bytes => do
    let (field, rest) ← readField bytes
    return field :: (← readFields bound rest)

def default : Kind → Value
  | .gauge => .gauge .zero
  | .counter => .counter 0

/-- Takes a field into the name and the value read so far; fields of other numbers are passed over.
-/
def merge (read : String × Value) : Field → Option (String × Value)
  | (1, .bytes list) => do return (← list.toText?, read.2)
  | (2, .fixed64 bits) =>
    match read.2 with
    | .gauge _ => some (read.1, .gauge (.ofBits bits))
    | .counter _ => none
  | (2, .varint n) =>
    match read.2 with
    | .gauge _ => none
    | .counter _ => some (read.1, .counter (UInt64.ofNat n).toInt64)
  | (number, _) => if number = 1 ∨ number = 2 then none else some read

def read (kind : Kind) (bytes : Bytes) : Option (String × Value) :=
  if limit < bytes.length then none
  else do (← readFields bytes.length bytes).foldlM merge ("", default kind)

end Message

/-- A call on its way. Which procedure is called says the kind of the metric. -/
structure Call.Sent where
  procedure : Kind
  message : Bytes
  metadata : List (String × Bytes)
  deriving Repr

def Call.sent (call : Call) :
    Call.Sent := ⟨call.value.kind, Message.write call.name call.value, call.metadata⟩

def Call.Sent.arrived (sent : Call.Sent) : Option Call := do
  let (name, value) ← Message.read sent.procedure sent.message
  return ⟨name, value, sent.metadata⟩

end Telemetry
