import Telemetry.Decimal.Literal
import Telemetry.Decimal.Shortest
import Telemetry.Proofs.Decimal.Nearest

/-!
Decimals that read back. Main statement: the shortest decimal of a magnitude, with zeros behind it
or without, is read as a literal of this magnitude.
-/
namespace Telemetry

namespace Binary64

theorem exactDigits_scaled (place : Nat) :
    2 ^ depth * exactDigits place = 10 ^ depth * units place := by
  have base : (10 : Nat) ^ depth = 2 ^ depth * 5 ^ depth := by rw [← Nat.mul_pow]
  rw [exactDigits, Nat.pow_eq, base, Nat.mul_assoc]

theorem readsBack_iff {place digits drop : Nat} :
    readsBack place digits drop = true ↔
      nearestPlace (digits * 10 ^ drop) (10 ^ depth) = place := by
  rw [readsBack, Nat.pow_eq, Nat.pow_eq, beq_iff_eq]

theorem readsBack_exactDigits (place : Nat) : readsBack place (exactDigits place) 0 = true := by
  rw [readsBack_iff, Nat.pow_zero, Nat.mul_one]
  exact nearestPlace_of_exact (Nat.pow_pos (by decide)) (exactDigits_scaled place)

theorem firstHit_hits {hit : Nat → Option Nat} {exact : Nat} {hits : Nat → Nat → Prop}
    (found : ∀ drop digits, hit drop = some digits → hits digits drop) (last : hits exact 0)
    (bound : Nat) : hits (firstHit hit exact bound).1 (firstHit hit exact bound).2 := by
  induction bound with
  | zero => exact last
  | succ drop ih =>
    rw [firstHit]
    cases here : hit (drop + 1) with
    | none => exact ih
    | some digits => exact found (drop + 1) digits here

theorem readsBack_search (tie : Tie) (place bound : Nat) :
    readsBack place (search tie place bound).1 (search tie place bound).2 = true := by
  unfold search
  apply @firstHit_hits _ _ fun digits drop => readsBack place digits drop = true
  · intro drop digits found
    exact readsBack_of_pick found
  · exact readsBack_exactDigits place

theorem shortest_spec (tie : Tie) (place : Nat) :
    ∃ drop : Nat, (shortest tie place).2 = drop - depth ∧
      nearestPlace ((shortest tie place).1 * 10 ^ drop) (10 ^ depth) = place := by
  have hit := readsBack_search tie place (Nat.toDigits 10 (exactDigits place)).length
  exact ⟨_, rfl, readsBack_iff.1 hit⟩

theorem shortest_pos (tie : Tie) {place : Nat} (nonzero : 0 < place) :
    0 < (shortest tie place).1 := by
  obtain ⟨drop, -, back⟩ := shortest_spec tie place
  apply Nat.pos_of_ne_zero
  intro zero
  have tiny : 2 * (2 ^ depth * 0) < 10 ^ depth := by
    rw [Nat.mul_zero, Nat.mul_zero]
    exact Nat.pow_pos (by decide)
  rw [zero, Nat.zero_mul, nearestPlace_of_tiny tiny] at back
  omega

end Binary64

namespace Decimal

open Binary64 (nearestPlace places depth)

theorem pow_length_le {n : Nat} (positive : 0 < n) : 10 ^ ((Nat.toDigits 10 n).length - 1) ≤ n := by
  apply Nat.le_of_not_lt
  intro below
  by_cases single : (Nat.toDigits 10 n).length - 1 = 0
  · rw [single, Nat.pow_zero] at below
    omega
  · have shorter := (Nat.length_toDigits_le_iff (by decide) (Nat.pos_of_ne_zero single)).2 below
    omega

theorem lt_pow_length (n : Nat) : n < 10 ^ (Nat.toDigits 10 n).length :=
  (Nat.length_toDigits_le_iff (by decide) Nat.length_toDigits_pos).1 (Nat.le_refl _)

/-- Powers of two and ten that bound the binary scale by the decimal one. -/
theorem two_pow_le_ten_pow {a b c k : Nat} (base : 2 ^ a ≤ 10 ^ b) (least : c ≤ a * k) :
    2 ^ c ≤ 10 ^ (b * k) := by
  calc 2 ^ c ≤ 2 ^ (a * k) := Nat.pow_le_pow_right (by decide) least
    _ = (2 ^ a) ^ k := Nat.pow_mul ..
    _ ≤ (10 ^ b) ^ k := Nat.pow_le_pow_left base k
    _ = 10 ^ (b * k) := (Nat.pow_mul ..).symm

theorem tiny_of_top {d : Decimal} (low : d.top < -330) :
    2 * (2 ^ depth * (d.digits * 10 ^ d.exponent.toNat)) < 10 ^ (-d.exponent).toNat := by
  obtain ⟨k, within, scale⟩ : ∃ k ≤ 329, 2 ^ (depth + 1) ≤ 10 ^ k :=
    ⟨7 * 47, by
      decide, two_pow_le_ten_pow (a := 23) (by decide) (by rw [Binary64.depth_eq]; decide)⟩
  have digits := lt_pow_length d.digits
  have whole : d.exponent.toNat = 0 := by
    unfold top at low
    omega
  have room : (Nat.toDigits 10 d.digits).length + k ≤ (-d.exponent).toNat := by
    unfold top at low
    omega
  rw [whole, Nat.pow_zero, Nat.mul_one]
  calc 2 * (2 ^ depth * d.digits) = d.digits * 2 ^ (depth + 1) := by
        rw [Nat.pow_succ', Nat.mul_comm d.digits, Nat.mul_assoc]
    _ < 10 ^ (Nat.toDigits 10 d.digits).length * 2 ^ (depth + 1) :=
        Nat.mul_lt_mul_of_pos_right digits (Nat.two_pow_pos _)
    _ ≤ 10 ^ (Nat.toDigits 10 d.digits).length * 10 ^ k := Nat.mul_le_mul_left _ scale
    _ = 10 ^ ((Nat.toDigits 10 d.digits).length + k) := (Nat.pow_add ..).symm
    _ ≤ 10 ^ (-d.exponent).toNat := Nat.pow_le_pow_right (by decide) room

theorem huge_of_top {d : Decimal} (nonzero : 0 < d.digits) (high : 310 < d.top) :
    ∃ e ≥ 1024, 2 ^ e * 10 ^ (-d.exponent).toNat ≤ d.digits * 10 ^ d.exponent.toNat := by
  obtain ⟨e, k, far, within, scale⟩ : ∃ e k, e ≥ 1024 ∧ k ≤ 310 ∧ 2 ^ e ≤ 10 ^ k :=
    ⟨205 * 5, 62 * 5, by decide, by decide, two_pow_le_ten_pow (by decide) (Nat.le_refl _)⟩
  have digits := pow_length_le nonzero
  have room :
      k + (-d.exponent).toNat ≤ (Nat.toDigits 10 d.digits).length - 1 + d.exponent.toNat := by
    unfold top at high
    omega
  refine ⟨e, far, ?_⟩
  calc 2 ^ e * 10 ^ (-d.exponent).toNat
      ≤ 10 ^ k * 10 ^ (-d.exponent).toNat := Nat.mul_le_mul_right _ scale
    _ = 10 ^ (k + (-d.exponent).toNat) := (Nat.pow_add ..).symm
    _ ≤ 10 ^ ((Nat.toDigits 10 d.digits).length - 1 + d.exponent.toNat) :=
        Nat.pow_le_pow_right (by decide) room
    _ = 10 ^ ((Nat.toDigits 10 d.digits).length - 1) * 10 ^ d.exponent.toNat := Nat.pow_add ..
    _ ≤ d.digits * 10 ^ d.exponent.toNat := Nat.mul_le_mul_right _ digits

theorem toBinary64_of_nearest {d : Decimal} {place : Nat} (nonzero : 0 < place)
    (finite : place < places)
    (nearest : nearestPlace (d.digits * 10 ^ d.exponent.toNat) (10 ^ (-d.exponent).toNat) = place) :
    d.toBinary64 = .ofPlace d.negative place := by
  have denominator : 0 < 10 ^ (-d.exponent).toNat := Nat.pow_pos (by decide)
  have notTiny : ¬ d.top < -330 := by
    intro low
    rw [Binary64.nearestPlace_of_tiny (tiny_of_top low)] at nearest
    omega
  have digits : d.digits ≠ 0 := by
    intro none
    rw [none, Nat.zero_mul, Binary64.nearestPlace_of_tiny] at nearest
    · omega
    · rw [Nat.mul_zero, Nat.mul_zero]
      exact denominator
  have notHuge : ¬ 310 < d.top := by
    intro high
    obtain ⟨e, far, huge⟩ := huge_of_top (Nat.pos_of_ne_zero digits) high
    have beyond := Binary64.places_le_nearestPlace denominator far huge
    omega
  rw [toBinary64, if_neg (not_or.2 ⟨digits, notTiny⟩), if_neg notHuge, Binary64.ofFraction,
    Nat.pow_eq, Nat.pow_eq, nearest]

/-- The shortest decimal of a magnitude, with zeros behind it or without, is read as the magnitude.
-/
theorem toBinary64_shortest (tie : Binary64.Tie) (negative : Bool) {place : Nat}
    (nonzero : 0 < place) (finite : place < places) (zeros : Nat) :
    toBinary64 ⟨negative, (Binary64.shortest tie place).1 * 10 ^ zeros,
      (Binary64.shortest tie place).2 - zeros⟩ = .ofPlace negative place := by
  obtain ⟨drop, exponent, back⟩ := Binary64.shortest_spec tie place
  generalize Binary64.shortest tie place = decimal at exponent back ⊢
  apply toBinary64_of_nearest nonzero finite
  rw [← back]
  apply Binary64.nearestPlace_congr (Nat.pow_pos (by decide)) (Nat.pow_pos (by decide))
  dsimp only
  rw [exponent]
  have sum : zeros + ((drop : Int) - depth - zeros).toNat + depth =
      drop + (-((drop : Int) - depth - zeros)).toNat := by omega
  rw [Nat.mul_assoc, Nat.mul_assoc, Nat.mul_assoc, ← Nat.pow_add, ← Nat.pow_add, ← Nat.pow_add,
    ← sum, Nat.add_assoc]

end Decimal
end Telemetry
