import Telemetry.Text.Hex

namespace Telemetry.Percent

def upperDigit (n : Nat) : UInt8 := (Nat.digitChar n).toUpper.toNat.toUInt8

def encode (plain : UInt8 → Bool) (bytes : Bytes) : Bytes :=
  bytes.flatMap fun b =>
    if plain b then [b] else [0x25, upperDigit (b.toNat / 16), upperDigit (b.toNat % 16)]

def digit? (b : UInt8) : Option Nat := Hex.digit? (Char.ofNat b.toNat)

def decode : Bytes → Bytes
  | 0x25 :: high :: low :: rest =>
    match digit? high, digit? low with
    | some h, some l => Hex.ofDigits h l :: decode rest
    | _, _ => 0x25 :: decode (high :: low :: rest)
  | b :: rest => b :: decode rest
  | [] => []

theorem length_decode_le (bytes : Bytes) : (decode bytes).length ≤ bytes.length := by
  fun_induction decode bytes <;> simp only [List.length_cons, List.length_nil] at * <;> omega

theorem digit?_upperDigit : ∀ n < 16, digit? (upperDigit n) = some n := by decide

theorem decode_encode {plain : UInt8 → Bool} (percent : plain 0x25 = false) (bytes : Bytes) :
    decode (encode plain bytes) = bytes := by
  induction bytes with
  | nil => rfl
  | cons b rest ih =>
    have small := b.toNat_lt
    have back : Hex.ofDigits (b.toNat / 16) (b.toNat % 16) = b := by
      rw [Hex.ofDigits, show b.toNat / 16 * 16 + b.toNat % 16 = b.toNat by omega]
      exact UInt8.ofNat_toNat
    simp only [encode, List.flatMap_cons] at ih ⊢
    cases isPlain : plain b
    · simp [decode, digit?_upperDigit _ (show b.toNat / 16 < 16 by omega),
        digit?_upperDigit _ (show b.toNat % 16 < 16 by omega), ih, back]
    · have notPercent : b ≠ 0x25 := by rintro rfl; rw [percent] at isPlain; cases isPlain
      simp only [if_true, List.cons_append, List.nil_append]
      rw [decode.eq_def]
      split
      · rename_i same; exact absurd (List.cons.inj same).1 notPercent
      · rename_i same
        rw [← (List.cons.inj same).1, ← (List.cons.inj same).2, ih]
      · rename_i same; cases same

end Telemetry.Percent
