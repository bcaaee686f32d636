import Telemetry.Rsa.Der
import Telemetry.Text.Pem

/-!
RSA keys and their files. A private key is accepted only if its numbers fit together. A file holds a
key bare or wrapped together with the name of the algorithm, and its label says which.
-/
namespace Telemetry.Rsa

structure PublicKey where
  modulus : Nat
  exponent : Nat
  deriving DecidableEq, Repr

structure PrivateKey where
  publicKey : PublicKey
  exponent : Nat
  p : Nat
  q : Nat
  deriving DecidableEq, Repr

namespace PublicKey

def size (key : PublicKey) : Nat := if key.modulus = 0 then 0 else key.modulus.log2 / 8 + 1

def isSound (key : PublicKey) : Bool :=
  key.modulus.log2 < 4096 && key.modulus % 2 == 1 && key.exponent % 2 == 1 && 2 ≤ key.exponent
    && key.exponent.log2 < 33 && key.exponent < key.modulus

def ofBare? (der : Bytes) : Option PublicKey := do
  match ← Der.naturals? 2 (← Der.sequence? der) with
  | [modulus, exponent] =>
    let key : PublicKey := ⟨modulus, exponent⟩
    if key.isSound then some key else none
  | _ => none

end PublicKey

namespace PrivateKey

/-- The modulus is the product of the primes, and the exponents undo each other modulo each of them.
-/
def isSound (key : PrivateKey) : Bool :=
  let product := key.publicKey.exponent * key.exponent
  key.publicKey.isSound && key.p * key.q == key.publicKey.modulus
    && 1 < key.p && 1 < key.q && product % (key.p - 1) == 1 && product % (key.q - 1) == 1

/-- A bare key: version zero, then modulus, exponents, primes and the numbers made of them. -/
def ofBare? (der : Bytes) : Option PrivateKey := do
  match ← Der.naturals? 9 (← Der.sequence? der) with
  | [0, modulus, exponent, inverse, p, q, _, _, _] =>
    let key : PrivateKey := ⟨⟨modulus, exponent⟩, inverse, p, q⟩
    if key.isSound then some key else none
  | _ => none

end PrivateKey

/-- The algorithm's name: the object identifier 1.2.840.113549.1.1.1 and no parameters. -/
def algorithm :
    Bytes := [0x06, 0x09, 0x2a, 0x86, 0x48, 0x86, 0xf7, 0x0d, 0x01, 0x01, 0x01, 0x05, 0x00]

def dropAlgorithm? (input : Bytes) : Option Bytes := do
  let (name, rest) ← Der.value? 0x30 input
  if name = algorithm then some rest else none

namespace PublicKey

/-- A wrapped key: the algorithm, and the bare key as a string of whole bytes. -/
def ofWrapped? (der : Bytes) : Option PublicKey := do
  let (bits, rest) ← Der.value? 0x03 (← dropAlgorithm? (← Der.sequence? der))
  match bits, rest with
  | 0 :: bare, [] => ofBare? bare
  | _, _ => none

def ofFile? (text : Bytes) : Option PublicKey := do
  let (label, der) ← Pem.parse text
  if label = Bytes.ofText "PUBLIC KEY" then ofWrapped? der
  else if label = Bytes.ofText "RSA PUBLIC KEY" then ofBare? der
  else none

end PublicKey

namespace PrivateKey

/-- A wrapped key: version zero, the algorithm, and the bare key as a string of bytes. -/
def ofWrapped? (der : Bytes) : Option PrivateKey := do
  let (version, rest) ← Der.natural? (← Der.sequence? der)
  guard (version = 0)
  let (bare, rest) ← Der.value? 0x04 (← dropAlgorithm? rest)
  guard rest.isEmpty
  ofBare? bare

def ofFile? (text : Bytes) : Option PrivateKey := do
  let (label, der) ← Pem.parse text
  if label = Bytes.ofText "PRIVATE KEY" then ofWrapped? der
  else if label = Bytes.ofText "RSA PRIVATE KEY" then ofBare? der
  else none

end PrivateKey
end Telemetry.Rsa
