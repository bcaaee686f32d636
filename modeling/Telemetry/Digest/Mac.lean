import Telemetry.Digest.Sha256
import Telemetry.Text.Blank
import Telemetry.Text.Hex

namespace Telemetry.Mac

/-- A key as one block: hashed first if it is longer, and filled up with zeros. -/
def keyBlock (key : Bytes) : Bytes :=
  let short := if 64 < key.length then Sha256.digest key else key
  short ++ List.replicate (64 - short.length) 0

def digest (message key : Bytes) : Bytes :=
  let block := keyBlock key
  let inner := Sha256.digest (block.map (· ^^^ 0x36) ++ message)
  Sha256.digest (block.map (· ^^^ 0x5c) ++ inner)

def sign (message key : Bytes) : String := String.ofList (Hex.encode (digest message key))

def verify (message : Bytes) (tag : String) (key : Bytes) : Bool :=
  Hex.decode (Text.trim tag.toList) == some (digest message key)

theorem length_digest (message key : Bytes) : (digest message key).length = 32 :=
  Sha256.length_digest _

theorem isBlank_digitChar : ∀ n < 16, Text.isBlank (Nat.digitChar n) = false := by decide

theorem isBlank_of_mem_encode {bytes : Bytes} {c : Char} (member : c ∈ Hex.encode bytes) :
    Text.isBlank c = false := by
  simp only [Hex.encode, List.mem_flatMap, List.mem_cons, List.not_mem_nil, or_false] at member
  obtain ⟨b, _, rfl | rfl⟩ := member
  · exact isBlank_digitChar _ (by have := b.toNat_lt; omega)
  · exact isBlank_digitChar _ (by omega)

theorem verify_sign (message key : Bytes) : verify message (sign message key) key = true := by
  simp [verify, sign, Text.trim_of_no_blank (fun _ => isBlank_of_mem_encode), Hex.decode_encode]

end Telemetry.Mac
