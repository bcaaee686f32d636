import Mathlib.Data.Nat.ChineseRemainder
import Mathlib.FieldTheory.Finite.Basic
import Mathlib.NumberTheory.LucasLehmer
import Telemetry.Rsa.Cipher

namespace Telemetry.Rsa

/-! ### Big-endian numbers -/

theorem foldl_bigEndian (bytes : Bytes) (n : Nat) :
    bytes.foldl (fun n b => 256 * n + b.toNat) n = n * 256 ^ bytes.length +
      Der.bigEndian bytes := by
  induction bytes generalizing n with
  | nil => simp [Der.bigEndian]
  | cons b rest ih =>
    have shifted :
        Der.bigEndian (b :: rest) = b.toNat * 256 ^ rest.length + Der.bigEndian rest := by
      rw [Der.bigEndian, List.foldl_cons, Nat.mul_zero, Nat.zero_add, ih]
    rw [List.foldl_cons, ih, shifted, List.length_cons, Nat.pow_succ]
    ring

theorem bigEndian_cons (b : UInt8) (rest : Bytes) :
    Der.bigEndian (b :: rest) = b.toNat * 256 ^ rest.length + Der.bigEndian rest := by
  rw [Der.bigEndian, List.foldl_cons, Nat.mul_zero, Nat.zero_add, foldl_bigEndian]

theorem bigEndian_concat (bytes : Bytes) (b : UInt8) :
    Der.bigEndian (bytes ++ [b]) = 256 * Der.bigEndian bytes + b.toNat := by
  rw [Der.bigEndian, List.foldl_append]
  rfl

theorem bigEndian_lt (bytes : Bytes) : Der.bigEndian bytes < 256 ^ bytes.length := by
  induction bytes with
  | nil => decide
  | cons b rest ih =>
    have small : b.toNat + 1 ≤ 256 := b.toNat_lt
    calc Der.bigEndian (b :: rest)
        = b.toNat * 256 ^ rest.length + Der.bigEndian rest := bigEndian_cons b rest
      _ < b.toNat * 256 ^ rest.length + 256 ^ rest.length := Nat.add_lt_add_left ih _
      _ = (b.toNat + 1) * 256 ^ rest.length := (Nat.succ_mul _ _).symm
      _ ≤ 256 * 256 ^ rest.length := Nat.mul_le_mul_right _ small
      _ = 256 ^ (b :: rest).length := (Nat.pow_succ' ..).symm

theorem length_toBigEndian (width n : Nat) : (toBigEndian width n).length = width := by
  induction width generalizing n with
  | zero => rfl
  | succ width ih => rw [toBigEndian, List.length_append, ih, List.length_singleton]

theorem bigEndian_toBigEndian {width n : Nat} (fits : n < 256 ^ width) :
    Der.bigEndian (toBigEndian width n) = n := by
  induction width generalizing n with
  | zero =>
    rw [Nat.pow_zero] at fits
    have none : n = 0 := by omega
    rw [none]
    rfl
  | succ width ih =>
    have high : n / 256 < 256 ^ width := by
      apply Nat.div_lt_of_lt_mul
      rw [← Nat.pow_succ']
      exact fits
    have low : (n % 256).toUInt8.toNat = n % 256 := by
      rw [Nat.toUInt8, UInt8.toNat_ofNat']
      omega
    rw [toBigEndian, bigEndian_concat, ih high, low]
    omega

theorem toBigEndian_bigEndian (bytes : Bytes) :
    toBigEndian bytes.length (Der.bigEndian bytes) = bytes := by
  induction bytes using List.reverseRecOn with
  | nil => rfl
  | append_singleton front b ih =>
    have small := b.toNat_lt
    have high : (256 * Der.bigEndian front + b.toNat) / 256 = Der.bigEndian front := by omega
    have low : (256 * Der.bigEndian front + b.toNat) % 256 = b.toNat := by omega
    rw [List.length_append, List.length_singleton, toBigEndian, bigEndian_concat, high, low, ih]
    congr 2
    exact UInt8.ofNat_toNat

/-! ### Powers -/

theorem powMod_eq (base exponent modulus : Nat) :
    powMod base exponent modulus = base ^ exponent % modulus := by
  fun_induction powMod base exponent modulus with
  | case1 base => rw [Nat.pow_zero]
  | case2 base exponent positive half odd ih =>
    have split : 2 * (exponent / 2) + 1 = exponent := by omega
    have square : half = base ^ (2 * (exponent / 2)) % modulus := by
      rw [Nat.pow_mul, Nat.pow_two]
      exact ih.trans (Nat.pow_mod ..).symm
    rw [square, Nat.mul_mod, Nat.mod_mod, ← Nat.mul_mod, ← Nat.pow_succ', Nat.succ_eq_add_one,
      split]
  | case3 base exponent positive half even ih =>
    have split : 2 * (exponent / 2) = exponent := by omega
    have square : half = (base * base) ^ (exponent / 2) % modulus := ih.trans (Nat.pow_mod ..).symm
    rw [square, ← Nat.pow_two, ← Nat.pow_mul, split]

theorem pow_modEq_self {p product : Nat} (prime : p.Prime) (one : product % (p - 1) = 1) (n : Nat) :
    n ^ product ≡ n [MOD p] := by
  have field : Fact p.Prime := ⟨prime⟩
  have split : (p - 1) * (product / (p - 1)) + 1 = product := by
    have whole := Nat.div_add_mod product (p - 1)
    rwa [one] at whole
  rw [← ZMod.natCast_eq_natCast_iff, Nat.cast_pow, ← split, pow_succ, pow_mul]
  by_cases divides : (n : ZMod p) = 0
  · rw [divides, mul_zero]
  · rw [ZMod.pow_card_sub_one_eq_one divides, one_pow, one_mul]

/-! ### Frames -/

section Frames

variable {size : Nat} {message : Bytes}

def padding (room : Nat) (filler : Bytes) : Bytes :=
  ((filler ++ List.replicate room 1).take room).map fun b => if b = 0 then 1 else b

theorem frame_eq (size : Nat) (filler message : Bytes) :
    frame size filler message =
      0 :: 2 :: (padding (size - 3 - message.length) filler ++ 0 :: message) := rfl

theorem length_padding (room : Nat) (filler : Bytes) : (padding room filler).length = room := by
  rw [padding, List.length_map, List.length_take, List.length_append, List.length_replicate]
  omega

theorem ne_zero_of_mem_padding {room : Nat} {filler : Bytes} {b : UInt8}
    (member : b ∈ padding room filler) :
    (b != 0) = true := by
  obtain ⟨c, -, rfl⟩ := List.mem_map.1 member
  by_cases zero : c = 0
  · rw [if_pos zero]
    rfl
  · rw [if_neg zero]
    exact bne_iff_ne.2 zero

theorem length_frame (fits : message.length + 3 ≤ size) (filler : Bytes) :
    (frame size filler message).length = size := by
  rw [frame_eq, List.length_cons, List.length_cons, List.length_append, length_padding,
    List.length_cons]
  omega

theorem unframe_frame (fits : message.length + 11 ≤ size) (filler : Bytes) :
    unframe (frame size filler message) = some message := by
  have room : 8 ≤ size - 3 - message.length := by omega
  have front : (padding (size - 3 - message.length) filler ++ 0 :: message).takeWhile (· != 0) =
      padding (size - 3 - message.length) filler := by
    rw [List.takeWhile_append_of_pos fun _ => ne_zero_of_mem_padding]
    exact List.append_nil _
  simp only [frame_eq, unframe, front, length_padding, if_pos room]
  rw [List.drop_left' (length_padding _ _)]

theorem bigEndian_frame_lt {key : PublicKey} (positive : key.modulus ≠ 0)
    (fits : message.length + 3 ≤ key.size) (filler : Bytes) :
    Der.bigEndian (frame key.size filler message) < key.modulus := by
  obtain ⟨rest, frame, length⟩ : ∃ rest, frame key.size filler message = 0 :: 2 :: rest ∧
      rest.length + 2 = key.size := by
    refine ⟨_, frame_eq .., ?_⟩
    exact (congrArg List.length (frame_eq key.size filler message)).symm.trans
      (length_frame fits filler)
  have size : key.size = key.modulus.log2 / 8 + 1 := if_neg positive
  have width : 8 * (rest.length + 1) ≤ key.modulus.log2 := by omega
  calc Der.bigEndian (Rsa.frame key.size filler message)
      = 2 * 256 ^ rest.length + Der.bigEndian rest := by
        rw [frame, bigEndian_cons, bigEndian_cons]
        exact (congrArg (· + _) (Nat.zero_mul _)).trans (Nat.zero_add _)
    _ < 2 * 256 ^ rest.length + 256 ^ rest.length := Nat.add_lt_add_left (bigEndian_lt rest) _
    _ ≤ 256 * 256 ^ rest.length := by omega
    _ = 2 ^ (8 * (rest.length + 1)) := by rw [← Nat.pow_succ', Nat.pow_mul]
    _ ≤ 2 ^ key.modulus.log2 := Nat.pow_le_pow_right (by decide) width
    _ ≤ key.modulus := Nat.log2_self_le positive

theorem modulus_lt (key : PublicKey) : key.modulus < 256 ^ key.size := by
  by_cases zero : key.modulus = 0
  · rw [zero]
    exact Nat.pow_pos (by decide)
  · have size : key.size = key.modulus.log2 / 8 + 1 := if_neg zero
    have width : key.modulus.log2 + 1 ≤ 8 * key.size := by omega
    calc key.modulus
        < 2 ^ (key.modulus.log2 + 1) := Nat.lt_log2_self
      _ ≤ 2 ^ (8 * key.size) := Nat.pow_le_pow_right (by decide) width
      _ = 256 ^ key.size := by rw [Nat.pow_mul]

end Frames

/-! ### Keys -/

theorem PublicKey.encrypt_of_fits {key : PublicKey} {message : Bytes}
    (fits : message.length ≤ key.capacity) (filler : Bytes) : ∃ cipher, key.encrypt filler message =
      some cipher ∧ cipher.length = key.size := by
  rw [encrypt, if_neg (Nat.not_lt.2 fits)]
  exact ⟨_, rfl, length_toBigEndian ..⟩

theorem PublicKey.ne_nil_of_encrypt {key : PublicKey} {filler message cipher : Bytes}
    (nonempty : message ≠ []) (encrypted : key.encrypt filler message = some cipher) :
    cipher ≠ [] := by
  by_cases long : key.capacity < message.length
  · rw [encrypt, if_pos long] at encrypted
    cases encrypted
  · have positive := List.length_pos_iff.2 nonempty
    rw [encrypt, if_neg long] at encrypted
    obtain rfl := Option.some.inj encrypted
    rw [capacity] at long
    apply List.ne_nil_of_length_pos
    rw [length_toBigEndian]
    omega

namespace PrivateKey

def Undoes (key : PrivateKey) : Prop :=
  ∀ {filler message cipher : Bytes}, message ≠ [] →
    key.publicKey.encrypt filler message = some cipher →
    key.decrypt cipher = some message

/-- A key as it is made: its numbers fit together, and its primes are two primes. -/
structure IsGenuine (key : PrivateKey) : Prop where
  sound : key.isSound = true
  prime_p : key.p.Prime
  prime_q : key.q.Prime
  distinct : key.p ≠ key.q

namespace IsGenuine

variable {key : PrivateKey}

theorem modulus_eq (genuine : key.IsGenuine) : key.p * key.q = key.publicKey.modulus := by
  have sound := genuine.sound
  simp only [isSound, Bool.and_eq_true, beq_iff_eq] at sound
  exact sound.1.1.1.1.2

theorem modulus_ne_zero (genuine : key.IsGenuine) : key.publicKey.modulus ≠ 0 := by
  rw [← genuine.modulus_eq]
  exact Nat.mul_ne_zero genuine.prime_p.ne_zero genuine.prime_q.ne_zero

theorem product_mod (genuine : key.IsGenuine) :
    key.publicKey.exponent * key.exponent % (key.p - 1) = 1 ∧
      key.publicKey.exponent * key.exponent % (key.q - 1) = 1 := by
  have sound := genuine.sound
  simp only [isSound, Bool.and_eq_true, beq_iff_eq] at sound
  exact ⟨sound.1.2, sound.2⟩

/-- The exponents undo each other. -/
theorem pow_pow_mod (genuine : key.IsGenuine) {n : Nat} (small : n < key.publicKey.modulus) :
    (n ^ key.publicKey.exponent % key.publicKey.modulus) ^ key.exponent % key.publicKey.modulus =
      n := by
  have coprime : Nat.Coprime key.p key.q :=
    (Nat.coprime_primes genuine.prime_p genuine.prime_q).2 genuine.distinct
  obtain ⟨one_p, one_q⟩ := genuine.product_mod
  have same : n ^ (key.publicKey.exponent * key.exponent) ≡ n [MOD key.publicKey.modulus] := by
    rw [← genuine.modulus_eq]
    exact (Nat.modEq_and_modEq_iff_modEq_mul coprime).1
      ⟨pow_modEq_self genuine.prime_p one_p n, pow_modEq_self genuine.prime_q one_q n⟩
  rw [← Nat.pow_mod, ← Nat.pow_mul]
  exact Nat.mod_eq_of_modEq same small

theorem undoes (genuine : key.IsGenuine) : key.Undoes := by
  intro filler message cipher nonempty encrypted
  have short : ¬ key.publicKey.capacity < message.length := by
    intro long
    rw [PublicKey.encrypt, if_pos long] at encrypted
    cases encrypted
  rw [PublicKey.encrypt, if_neg short] at encrypted
  obtain rfl := Option.some.inj encrypted
  have positive := List.length_pos_iff.2 nonempty
  have fits : message.length + 11 ≤ key.publicKey.size := by
    rw [PublicKey.capacity] at short
    omega
  have framed :=
    bigEndian_frame_lt genuine.modulus_ne_zero (by omega : message.length + 3 ≤ _) filler
  have power : ∀ n, n % key.publicKey.modulus < key.publicKey.modulus := by
    intro n
    exact Nat.mod_lt _ (Nat.pos_of_ne_zero genuine.modulus_ne_zero)
  have whole := toBigEndian_bigEndian (frame key.publicKey.size filler message)
  rw [length_frame (by omega) filler] at whole
  rw [decrypt, powMod_eq, bigEndian_toBigEndian ((power _).trans (modulus_lt _))]
  simp only [if_neg (Nat.not_le.2 (power _)), powMod_eq, genuine.pow_pow_mod framed, whole]
  exact unframe_frame fits filler

end IsGenuine

def mersenneKey : PrivateKey :=
  let p := 2 ^ 127 - 1
  let q := 2 ^ 607 - 1
  ⟨⟨p * q, 5⟩, (4 * (p - 1) * (q - 1) + 1) / 5, p, q⟩

theorem isGenuine_mersenneKey : mersenneKey.IsGenuine where
  sound := by decide +kernel
  prime_p := lucas_lehmer_sufficiency 127 (by decide) (by norm_num)
  prime_q := lucas_lehmer_sufficiency 607 (by decide) (by norm_num)
  distinct := by decide +kernel

end PrivateKey
end Telemetry.Rsa
