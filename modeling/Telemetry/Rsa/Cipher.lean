import Telemetry.Rsa.Key

namespace Telemetry.Rsa

def powMod (base exponent modulus : Nat) : Nat :=
  if exponent = 0 then 1 % modulus
  else
    let half := powMod (base * base % modulus) (exponent / 2) modulus
    if exponent % 2 = 1 then base * half % modulus else half
termination_by exponent

/-- The big-endian bytes of a number, filled up with zeros to a width. -/
def toBigEndian : Nat → Nat → Bytes
  | 0, _ => []
  | width + 1, n => toBigEndian width (n / 256) ++ [(n % 256).toUInt8]

def PublicKey.capacity (key : PublicKey) : Nat := key.size - 11

/-- The frame of a message; `filler` gives the nonzero bytes, of which one that is zero counts as
one. -/
def frame (size : Nat) (filler : Bytes) (message : Bytes) : Bytes :=
  let room := size - 3 - message.length
  let bytes := (filler ++ List.replicate room 1).take room
  [0, 2] ++ bytes.map (fun b => if b = 0 then 1 else b) ++ 0 :: message

def unframe : Bytes → Option Bytes
  | 0 :: 2 :: rest =>
    let filler := rest.takeWhile (· != 0)
    if 8 ≤ filler.length then
      match rest.drop filler.length with
      | _ :: message => some message
      | [] => none
    else none
  | _ => none

def PublicKey.encrypt (key : PublicKey) (filler message : Bytes) : Option Bytes :=
  if key.capacity < message.length then none
  else
    let framed := Der.bigEndian (frame key.size filler message)
    some (toBigEndian key.size (powMod framed key.exponent key.modulus))

/-- Decrypts a ciphertext of any length, taken as a number below the modulus. -/
def PrivateKey.decrypt (key : PrivateKey) (cipher : Bytes) : Option Bytes :=
  let number := Der.bigEndian cipher
  if key.publicKey.modulus ≤ number then none
  else unframe (toBigEndian key.publicKey.size (powMod number key.exponent key.publicKey.modulus))

end Telemetry.Rsa
