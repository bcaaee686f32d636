import Telemetry.Bytes

/-!
SHA-256: the message is padded to whole blocks of 64 bytes, each of which is mixed into a state of
eight words. Main statement: a digest has 32 bytes.
-/
namespace Telemetry.Sha256

structure State where
  (a b c d e f g h : UInt32)
  deriving DecidableEq, Repr

def initial : State :=
  ⟨0x6a09e667, 0xbb67ae85, 0x3c6ef372, 0xa54ff53a, 0x510e527f, 0x9b05688c, 0x1f83d9ab, 0x5be0cd19⟩

def constants : List UInt32 := [
  0x428a2f98, 0x71374491, 0xb5c0fbcf, 0xe9b5dba5, 0x3956c25b, 0x59f111f1, 0x923f82a4, 0xab1c5ed5,
  0xd807aa98, 0x12835b01, 0x243185be, 0x550c7dc3, 0x72be5d74, 0x80deb1fe, 0x9bdc06a7, 0xc19bf174,
  0xe49b69c1, 0xefbe4786, 0x0fc19dc6, 0x240ca1cc, 0x2de92c6f, 0x4a7484aa, 0x5cb0a9dc, 0x76f988da,
  0x983e5152, 0xa831c66d, 0xb00327c8, 0xbf597fc7, 0xc6e00bf3, 0xd5a79147, 0x06ca6351, 0x14292967,
  0x27b70a85, 0x2e1b2138, 0x4d2c6dfc, 0x53380d13, 0x650a7354, 0x766a0abb, 0x81c2c92e, 0x92722c85,
  0xa2bfe8a1, 0xa81a664b, 0xc24b8b70, 0xc76c51a3, 0xd192e819, 0xd6990624, 0xf40e3585, 0x106aa070,
  0x19a4c116, 0x1e376c08, 0x2748774c, 0x34b0bcb5, 0x391c0cb3, 0x4ed8aa4a, 0x5b9cca4f, 0x682e6ff3,
  0x748f82ee, 0x78a5636f, 0x84c87814, 0x8cc70208, 0x90befffa, 0xa4506ceb, 0xbef9a3f7, 0xc67178f2]

def rotateRight (x : UInt32) (n : UInt32) : UInt32 := x >>> n ||| x <<< (32 - n)

/-- The schedule, last word first: each new word is made of those 2, 7, 15 and 16 places back. -/
def extend : Nat → List UInt32 → List UInt32
  | 0, words => words
  | count + 1, words =>
    let back (n : Nat) : UInt32 := words.getD (n - 1) 0
    let x := back 15
    let y := back 2
    let s0 := rotateRight x 7 ^^^ rotateRight x 18 ^^^ x >>> 3
    let s1 := rotateRight y 17 ^^^ rotateRight y 19 ^^^ y >>> 10
    extend count ((back 16 + s0 + back 7 + s1) :: words)

def round (s : State) (constant word : UInt32) : State :=
  let s1 := rotateRight s.e 6 ^^^ rotateRight s.e 11 ^^^ rotateRight s.e 25
  let choice := (s.e &&& s.f) ^^^ (~~~s.e &&& s.g)
  let t1 := s.h + s1 + choice + constant + word
  let s0 := rotateRight s.a 2 ^^^ rotateRight s.a 13 ^^^ rotateRight s.a 22
  let majority := (s.a &&& s.b) ^^^ (s.a &&& s.c) ^^^ (s.b &&& s.c)
  ⟨t1 + s0 + majority, s.a, s.b, s.c, s.d + t1, s.e, s.f, s.g⟩

def State.add (s t : State) : State :=
  ⟨s.a + t.a, s.b + t.b, s.c + t.c, s.d + t.d, s.e + t.e, s.f + t.f, s.g + t.g, s.h + t.h⟩

def bigEndian (n width : Nat) : Bytes :=
  (List.range width).reverse.map fun i => (n / Nat.pow 256 i % 256).toUInt8

def words (done : List UInt32) : Bytes → List UInt32
  | a :: b :: c :: d :: rest =>
    words ((a.toUInt32 <<< 24 ||| b.toUInt32 <<< 16 ||| c.toUInt32 <<< 8 ||| d.toUInt32) :: done)
      rest
  | _ => done

def compress (s : State) (block : Bytes) : State :=
  let schedule := (extend 48 (words [] block)).reverse
  s.add ((constants.zip schedule).foldl (fun s (constant, word) => round s constant word) s)

/-- The message, a one bit, zeros to eight bytes before the end of a block, and the length in bits.
-/
def pad (message : Bytes) : Bytes :=
  let size := message.length
  message ++ 0x80 ::
    (List.replicate ((119 - size % 64) % 64) 0 ++ bigEndian (8 * size % 0x10000000000000000) 8)

def blocks : Nat → State → Bytes → State
  | 0, s, _ => s
  | count + 1, s, input => blocks count (compress s (input.take 64)) (input.drop 64)

def State.toBytes (s : State) : Bytes :=
  [s.a, s.b, s.c, s.d, s.e, s.f, s.g, s.h].flatMap fun word => bigEndian word.toNat 4

def digest (message : Bytes) : Bytes :=
  let padded := pad message
  (blocks (padded.length / 64) initial padded).toBytes

theorem length_bigEndian (n width : Nat) : (bigEndian n width).length = width := by simp [bigEndian]

theorem length_toBytes (s : State) : s.toBytes.length = 32 := by
  simp [State.toBytes, length_bigEndian]

@[simp] theorem length_digest (message : Bytes) : (digest message).length = 32 := length_toBytes _

end Telemetry.Sha256
