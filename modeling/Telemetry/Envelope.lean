import Telemetry.Digest.Mac
import Telemetry.Gzip.Member
import Telemetry.Metric.Wire
import Telemetry.Rsa.Cipher

/-!
Envelopes: the form in which plain JSON travels. Sealing signs the plain bytes, then compresses,
then encrypts, each if asked for; opening goes the other way and checks the signature last, so that
bytes come out only when they are trusted.
-/
namespace Telemetry

structure Envelope where
  body : Bytes
  /-- The tag of the plain bytes, when a key is shared. -/
  signature : Option String
  gzip : Bool
  encrypted : Bool
  deriving DecidableEq, Repr

namespace Envelope

inductive Fault where
  | tooLong (length capacity : Nat)
  | undecipherable
  | corrupt
  | inflatedTooLarge (limit : Nat)
  /-- The limit on what is inflated is the largest number there is, and the program stops. -/
  | overflow
  | unsigned
  | forged
  | badKey
  | unreadableKey
  deriving DecidableEq, Repr

def Fault.message? : Fault → Option String
  | tooLong length capacity => some ("Transport: payload of " ++ toString length
      ++ " bytes exceeds the " ++ toString capacity ++ "-byte RSA plaintext ceiling")
  | undecipherable => some "Transport: decryption failed: decryption error"
  | inflatedTooLarge limit =>
    some ("Transport: decompressed payload exceeds " ++ toString limit ++ " bytes")
  | unsigned => some "Transport: signature required but missing"
  | forged => some "Transport: signature mismatch"
  | corrupt | overflow | badKey | unreadableKey => none

def Fault.ofGzip : Gzip.Fault → Fault
  | .corrupt => corrupt
  | .tooLarge limit => inflatedTooLarge limit
  | .overflow => overflow

structure Sealing where
  key : Option Bytes := none
  compress : Bool := false
  publicKey : Option Rsa.PublicKey := none

structure Opening where
  key : Option Bytes := none
  privateKey : Option Rsa.PrivateKey := none
  limit : Option Nat := none

def Sealing.sign (sealing : Sealing) (message : Bytes) : Option String :=
  sealing.key.map (Mac.sign message)

def Sealing.pack (sealing : Sealing) (plain : Bytes) : Bytes :=
  if sealing.compress then Gzip.pack plain else plain

/-- Seals plain bytes that have been packed; `filler` are the nonzero bytes that encryption puts in
front of a message. -/
def Sealing.sealPacked (sealing : Sealing) (filler plain packed : Bytes) : Except Fault Envelope :=
  match sealing.publicKey with
  | none => .ok ⟨packed, sealing.sign plain, sealing.compress, false⟩
  | some key =>
    match key.encrypt filler packed with
    | some body => .ok ⟨body, sealing.sign plain, sealing.compress, true⟩
    | none => .error (.tooLong packed.length key.capacity)

def Sealing.seal (sealing : Sealing) (filler plain : Bytes) : Except Fault Envelope :=
  sealing.sealPacked filler plain (sealing.pack plain)

def Sealing.sealMetric (sealing : Sealing) (filler : Bytes) (m : Metric) : Except Fault Envelope :=
  sealing.seal filler m.toJson

def Sealing.sealBatch (sealing : Sealing) (filler : Bytes) (ms : List Metric) :
    Except Fault Envelope :=
  sealing.seal filler (Metric.listToJson ms)

def Opening.decipher (opening : Opening) (body : Bytes) : Except Fault Bytes :=
  match opening.privateKey with
  | none => .ok body
  | some key =>
    if body.isEmpty then .ok body
    else
      match key.decrypt body with
      | some plain => .ok plain
      | none => .error .undecipherable

def Opening.inflate (opening : Opening) (gzip : Bool) (body : Bytes) : Except Fault Bytes :=
  if gzip && !body.isEmpty then
    match opening.limit with
    | some limit => (Gzip.unpackWithin limit body).mapError Fault.ofGzip
    | none => (Gzip.unpack body).mapError Fault.ofGzip
  else .ok body

def Opening.authenticate (opening : Opening) (signature : Option String) (plain : Bytes) :
    Except Fault Bytes :=
  match opening.key with
  | none => .ok plain
  | some key =>
    match signature with
    | none => .error .unsigned
    | some tag => if Mac.verify plain tag key then .ok plain else .error .forged

/-- The plain bytes of a body. An empty one is neither deciphered nor inflated. -/
def Opening.unseal (opening : Opening) (body : Bytes) (gzip : Bool) (signature : Option String) :
    Except Fault Bytes := do
  opening.authenticate signature (← opening.inflate gzip (← opening.decipher body))

def Opening.requiresSignature (opening : Opening) : Bool := opening.key.isSome

def loadKey {α : Type} (ofFile? : Bytes → Option α) (file : Option Bytes) : Except Fault α :=
  match file with
  | none => .error .unreadableKey
  | some bytes =>
    if bytes.toText?.isNone then .error .unreadableKey
    else
      match ofFile? bytes with
      | some key => .ok key
      | none => .error .badKey

end Envelope
end Telemetry
