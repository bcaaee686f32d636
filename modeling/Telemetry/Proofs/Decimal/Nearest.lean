import Mathlib.Algebra.Group.Nat.Defs
import Telemetry.Decimal.Binary64

namespace Telemetry.Binary64

theorem depth_eq : depth = 1074 := by
  unfold depth
  rfl

theorem binade_eq : binade = 2 ^ 52 := rfl

theorem places_eq : places = binade * 2046 + binade := rfl

/-- The steps of the scale near a fraction, in units of the least magnitude. -/
def shiftOf (num den : Nat) : Nat := (2 ^ depth * num / den).log2 + 1 - 53

theorem nearestPlace_eq (num den : Nat) :
    nearestPlace num den =
      if 2 * (2 ^ depth * num % (den * 2 ^ shiftOf num den)) < den * 2 ^ shiftOf num den then
        binade * shiftOf num den + 2 ^ depth * num / (den * 2 ^ shiftOf num den)
      else if den * 2 ^ shiftOf num den < 2 * (2 ^ depth * num % (den * 2 ^ shiftOf num den)) then
        binade * shiftOf num den + 2 ^ depth * num / (den * 2 ^ shiftOf num den) + 1
      else
        binade * shiftOf num den + 2 ^ depth * num / (den * 2 ^ shiftOf num den) +
          (binade * shiftOf num den + 2 ^ depth * num / (den * 2 ^ shiftOf num den)) % 2 := rfl

theorem shiftOf_mul {k : Nat} (positive : 0 < k) (num den : Nat) :
    shiftOf (k * num) (k * den) = shiftOf num den := by
  rw [shiftOf, shiftOf, Nat.mul_left_comm, Nat.mul_div_mul_left _ _ positive]

theorem nearestPlace_mul {k : Nat} (positive : 0 < k) (num den : Nat) :
    nearestPlace (k * num) (k * den) = nearestPlace num den := by
  have scaled : 2 ^ depth * (k * num) = k * (2 ^ depth * num) := Nat.mul_left_comm _ _ _
  have rest : ∀ x y : Nat, 2 * (k * x) < k * y ↔ 2 * x < y := by
    intro x y
    rw [Nat.mul_left_comm, Nat.mul_lt_mul_left positive]
  have rest' : ∀ x y : Nat, k * x < 2 * (k * y) ↔ x < 2 * y := by
    intro x y
    rw [Nat.mul_left_comm, Nat.mul_lt_mul_left positive]
  rw [nearestPlace_eq, nearestPlace_eq, shiftOf_mul positive, scaled, Nat.mul_assoc,
    Nat.mul_div_mul_left _ _ positive, Nat.mul_mod_mul_left]
  simp only [rest, rest']

theorem nearestPlace_congr {num den num' den' : Nat} (positive : 0 < den) (positive' : 0 < den')
    (same : num * den' = num' * den) : nearestPlace num den = nearestPlace num' den' := by
  calc nearestPlace num den
      = nearestPlace (den' * num) (den' * den) := (nearestPlace_mul positive' num den).symm
    _ = nearestPlace (den * num') (den * den') := by
        rw [Nat.mul_comm den' num, same, Nat.mul_comm num' den, Nat.mul_comm den' den]
    _ = nearestPlace num' den' := nearestPlace_mul positive num' den'

theorem log2_units_of_small {place : Nat} (small : place < 2 * binade) :
    (units place).log2 + 1 - 53 = 0 := by
  rw [units_of_small small]
  by_cases zero : place = 0
  · subst zero
    rfl
  · have bound : place.log2 < 53 := (Nat.log2_lt zero).2 small
    omega

theorem units_of_large {place : Nat} (large : 2 * binade ≤ place) :
    units place = (binade + place % binade) * 2 ^ (place / binade - 1) :=
  if_neg (Nat.not_lt.2 large)

theorem log2_units_of_large {place : Nat} (large : 2 * binade ≤ place) :
    (units place).log2 + 1 - 53 = place / binade - 1 := by
  have remainder : place % binade < binade := Nat.mod_lt _ (by decide)
  have lower : 2 ^ (52 + (place / binade - 1)) ≤ units place := by
    rw [units_of_large large, Nat.pow_add]
    exact Nat.mul_le_mul_right _ (Nat.le_add_right _ _)
  have upper : units place < 2 ^ (53 + (place / binade - 1)) := by
    rw [units_of_large large, Nat.pow_add]
    refine Nat.mul_lt_mul_of_pos_right ?_ (Nat.two_pow_pos _)
    rw [binade_eq] at *
    omega
  have positive : units place ≠ 0 := by
    have := Nat.two_pow_pos (52 + (place / binade - 1))
    omega
  have least := (Nat.le_log2 positive).2 lower
  have most := (Nat.log2_lt positive).2 upper
  omega

/-- A fraction that is exactly the magnitude at a place has this place. -/
theorem nearestPlace_of_exact {num den place : Nat} (positive : 0 < den)
    (exact : 2 ^ depth * num = den * units place) : nearestPlace num den = place := by
  have shift : shiftOf num den = (units place).log2 + 1 - 53 := by
    rw [shiftOf, exact, Nat.mul_div_cancel_left _ positive]
  by_cases small : place < 2 * binade
  · rw [log2_units_of_small small] at shift
    rw [nearestPlace_eq, shift, exact, units_of_small small, Nat.pow_zero, Nat.mul_one,
      Nat.mul_mod_right, Nat.mul_div_cancel_left _ positive, Nat.mul_zero, if_pos positive,
      Nat.mul_zero,
      Nat.zero_add]
  · have large : 2 * binade ≤ place := Nat.not_lt.1 small
    have quotient : 2 ≤ place / binade := (Nat.le_div_iff_mul_le (by decide)).2 large
    rw [log2_units_of_large large] at shift
    have steps :
        den * units place = den * 2 ^ (place / binade - 1) * (binade + place % binade) := by
      rw [units_of_large large, Nat.mul_assoc, Nat.mul_comm (2 ^ _)]
    have stepPositive : 0 < den * 2 ^ (place / binade - 1) :=
      Nat.mul_pos positive (Nat.two_pow_pos _)
    have split := Nat.div_add_mod place binade
    have scale : binade * (place / binade) = binade * (place / binade - 1) + binade := by
      rw [← Nat.mul_succ]
      congr 1
      omega
    rw [nearestPlace_eq, shift, exact, steps, Nat.mul_mod_right,
      Nat.mul_div_cancel_left _ stepPositive, Nat.mul_zero, if_pos stepPositive]
    omega

theorem nearestPlace_of_tiny {num den : Nat} (tiny : 2 * (2 ^ depth * num) < den) :
    nearestPlace num den = 0 := by
  have below : 2 ^ depth * num < den := by omega
  have shift : shiftOf num den = 0 := by
    rw [shiftOf, Nat.div_eq_of_lt below]
    rfl
  rw [nearestPlace_eq, shift, Nat.pow_zero, Nat.mul_one, Nat.mod_eq_of_lt below, if_pos tiny,
    Nat.div_eq_of_lt below, Nat.mul_zero]

theorem places_le_nearestPlace {num den e : Nat} (positive : 0 < den) (far : 1024 ≤ e)
    (huge : 2 ^ e * den ≤ num) : places ≤ nearestPlace num den := by
  have scaled : 2 ^ (depth + e) ≤ 2 ^ depth * num / den := by
    rw [Nat.le_div_iff_mul_le positive, Nat.pow_add, Nat.mul_assoc]
    exact Nat.mul_le_mul_left _ huge
  have nonzero : 2 ^ depth * num / den ≠ 0 := by
    have := Nat.two_pow_pos (depth + e)
    omega
  have magnitude : 2098 ≤ (2 ^ depth * num / den).log2 := by
    have least := (Nat.le_log2 nonzero).2 scaled
    rw [depth_eq] at *
    omega
  have shift : shiftOf num den = (2 ^ depth * num / den).log2 - 52 := by
    rw [shiftOf]
    omega
  -- Shifting leaves a leading bit at place 52, whatever is cut off behind it.
  have leading : binade ≤ 2 ^ depth * num / (den * 2 ^ shiftOf num den) := by
    rw [← Nat.div_div_eq_div_mul, Nat.le_div_iff_mul_le (Nat.two_pow_pos _), binade_eq,
      ← Nat.pow_add]
    have sum : 52 + shiftOf num den = (2 ^ depth * num / den).log2 := by omega
    rw [sum]
    exact Nat.log2_self_le nonzero
  have shifts : binade * 2046 ≤ binade * shiftOf num den := Nat.mul_le_mul_left _ (by omega)
  have whole :
      places ≤ binade * shiftOf num den + 2 ^ depth * num / (den * 2 ^ shiftOf num den) := by
    rw [places_eq]
    exact Nat.add_le_add shifts leading
  rw [nearestPlace_eq]
  split
  · exact whole
  split
  · exact Nat.le_succ_of_le whole
  · exact Nat.le_trans whole (Nat.le_add_right _ _)

end Telemetry.Binary64
