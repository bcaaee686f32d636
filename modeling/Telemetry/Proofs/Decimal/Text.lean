import Telemetry.Decimal.Layout
import Telemetry.Proofs.Json.Scalar
import Telemetry.Proofs.Span

namespace Telemetry

open Json
  (Numeral IsDigits isDigits_toDigits isDigits_zero isDigits_zeros_append isDigits_append_zeros)

namespace Decimal

variable {numeral : Numeral}

/-! ### Literals -/

theorem takeSign_sign (negative : Bool) {digits : List Char} (several : IsDigits digits)
    (rest : List Char) :
    takeSign (sign negative (digits ++ rest)) = (negative, digits ++ rest) := by
  cases negative with
  | true => rfl
  | false =>
    obtain ⟨first, others, rfl⟩ := List.exists_cons_of_ne_nil several.1
    exact takeSign_of_digit (several.2 first (List.mem_cons_self ..))

theorem readUnsigned_text (wellFormed : numeral.WellFormed) (negative : Bool) :
    readUnsigned negative (numeral.whole ++ numeral.fractionText) =
      some (ofParts negative numeral.whole (numeral.fraction.getD []) 0) := by
  have nonempty := wellFormed.whole.1
  unfold Numeral.fractionText
  cases fraction : numeral.fraction with
  | none =>
    obtain ⟨whole, rest⟩ := @span_append _ _ numeral.whole [] wellFormed.whole.2 nofun
    rw [readUnsigned, whole, rest]
    simp only [List.takeWhile_nil, nonempty, false_and, if_false]
    rfl
  | some digits =>
    have several := wellFormed.fraction digits fraction
    have point : ∀ c ∈ ('.' :: digits).head?, c.isDigit = false := by
      intro c member
      cases member
      rfl
    obtain ⟨whole, rest⟩ := span_append wellFormed.whole.2 point
    obtain ⟨places, nothing⟩ := span_of_all several.2
    rw [readUnsigned, whole, rest]
    simp only [places, nothing, nonempty, false_and, if_false]
    rfl

theorem ofText?_text (wellFormed : numeral.WellFormed) (positional : numeral.exponent = none) :
    Binary64.ofText? (String.ofList numeral.text) = some numeral.value.value.toBinary64 := by
  have text : numeral.text = sign numeral.negative (numeral.whole ++ numeral.fractionText) := by
    rw [Numeral.text, Numeral.exponentText, positional, List.append_nil]
  have value : numeral.value.value =
      ofParts numeral.negative numeral.whole (numeral.fraction.getD []) 0 := by
    rw [Numeral.value, Numeral.exponentValue, positional]
  rw [Binary64.ofText?, String.toList_ofList, text, takeSign_sign _ wellFormed.whole]
  simp only [readUnsigned_text wellFormed, value]

def IsPositional (c : Char) : Prop := c.isDigit = true ∨ c = '-' ∨ c = '.'

theorem isPositional_of_mem_sign {negative : Bool} {text : List Char}
    (inside : ∀ c ∈ text, IsPositional c) {c : Char} (member : c ∈ sign negative text) :
    IsPositional c := by
  cases negative with
  | false => exact inside c member
  | true =>
    rcases List.mem_cons.1 member with rfl | member
    · exact .inr (.inl rfl)
    · exact inside c member

theorem isPositional_of_mem_text (wellFormed : numeral.WellFormed)
    (positional : numeral.exponent = none) {c : Char} (member : c ∈ numeral.text) :
    IsPositional c := by
  rw [Numeral.text, Numeral.exponentText, positional, List.append_nil] at member
  apply isPositional_of_mem_sign _ member
  intro c member
  rcases List.mem_append.1 member with whole | fraction
  · exact .inl (wellFormed.whole.2 c whole)
  · unfold Numeral.fractionText at fraction
    cases places : numeral.fraction with
    | none =>
      rw [places] at fraction
      cases fraction
    | some digits =>
      rw [places] at fraction
      rcases List.mem_cons.1 fraction with rfl | digit
      · exact .inr (.inr rfl)
      · exact .inl ((wellFormed.fraction digits places).2 c digit)

theorem isPositional_of_mem_writeInt64 {n : Int64} {c : Char} (member : c ∈ writeInt64 n) :
    IsPositional c := by
  apply isPositional_of_mem_sign _ member
  intro c member
  exact .inl ((isDigits_toDigits _).2 c member)

theorem text_ne_nil (wellFormed : numeral.WellFormed) : numeral.text ≠ [] := by
  have nonempty := wellFormed.whole.1
  cases negative : numeral.negative <;> simp [Numeral.text, sign, negative, nonempty]

theorem writeInt64_ne_nil (n : Int64) : writeInt64 n ≠ [] := by
  have nonempty := (isDigits_toDigits n.toInt.natAbs).1
  unfold writeInt64 sign
  split
  · exact List.cons_ne_nil _ _
  · exact nonempty

/-! ### Shortest decimals -/

theorem writes_zeros (negative : Bool) {digits : Nat} (positive : 0 < digits) (zeros : Nat) :
    Numeral.Writes ⟨negative, Nat.toDigits 10 digits ++ List.replicate zeros '0', none, none⟩
      negative digits zeros := by
  obtain ⟨pointed, -⟩ := Json.writes_whole negative positive zeros
  refine ⟨⟨pointed.whole, pointed.lead, nofun, nofun⟩, zeros, ?_⟩
  simp only [Numeral.value, ofParts, Numeral.exponentValue, Option.getD_none, List.append_nil,
    Nat.ofDigitChars_append, Nat.ofDigitChars_ten_toDigits, Nat.ofDigitChars_replicate_zero]
  rw [Nat.mul_comm, List.length_nil, Int.sub_self]
  rfl

theorem exists_numeral_positional (negative : Bool) {digits : Nat} (positive : 0 < digits)
    (exponent : Int) :
    ∃ numeral : Numeral,
      numeral.text = sign negative (positional (Nat.toDigits 10 digits) exponent) ∧
      numeral.exponent = none ∧ numeral.Writes negative digits exponent := by
  cases exponent with
  | ofNat zeros =>
    refine ⟨_, ?_, rfl, writes_zeros negative positive zeros⟩
    simp [Numeral.text, Numeral.fractionText, Numeral.exponentText, positional]
  | negSucc k =>
    by_cases short : (Nat.toDigits 10 digits).length ≤ k + 1
    · refine ⟨_, ?_, rfl, Json.writes_below negative digits (k + 1) short⟩
      simp [Numeral.text, Numeral.fractionText, Numeral.exponentText, positional, short]
    · refine ⟨_, ?_, rfl,
        Json.writes_across negative positive (Nat.succ_pos k) (Nat.not_le.1 short)⟩
      simp [Numeral.text, Numeral.fractionText, Numeral.exponentText, positional, short]

/-- The text of a finite number is a numeral without an exponent that rounds back to it. -/
theorem exists_numeral_toText {v : Binary64} (finite : v.isFinite) :
    ∃ numeral : Numeral, v.toText = String.ofList numeral.text ∧ numeral.exponent = none ∧
      numeral.WellFormed ∧
      numeral.value.value.toBinary64 = v := by
  cases v with
  | nan => cases finite
  | infinite => cases finite
  | finite negative place =>
    by_cases zero : place.val = 0
    · have same : place = ⟨0, by decide⟩ := Fin.ext zero
      refine ⟨⟨negative, ['0'], none, none⟩, ?_, rfl, ⟨isDigits_zero, fun _ => rfl, nofun, nofun⟩,
        ?_⟩
      · rw [Binary64.toText, if_pos zero]
        rfl
      · rw [same]
        rfl
    · have nonzero : 0 < place.val := Nat.pos_of_ne_zero zero
      obtain ⟨numeral, text, positional, wellFormed, zeros, value⟩ :=
        exists_numeral_positional negative (Binary64.shortest_pos .upward nonzero)
          (Binary64.shortest .upward place.val).2
      refine ⟨numeral, ?_, positional, wellFormed, ?_⟩
      · rw [Binary64.toText, if_neg zero, text]
      · rw [value, toBinary64_shortest .upward negative nonzero place.isLt, Binary64.ofPlace,
          dif_pos place.isLt]

/-! ### A fixed number of places -/

theorem length_toDigits_mod {places : Nat} (some : 0 < places) (count : Nat) :
    (Nat.toDigits 10 (count % Nat.pow 10 places)).length ≤ places :=
  (Nat.length_toDigits_le_iff (by decide) some).2 (Nat.mod_lt _ (Nat.pow_pos (by decide)))

theorem exists_numeral_fixedPoint (negative : Bool) {places : Nat} (some : 0 < places)
    (count : Nat) :
    ∃ numeral : Numeral, numeral.text = sign negative (fixedPoint places count) ∧
      numeral.exponent = none ∧
      numeral.WellFormed ∧ numeral.value.value = ⟨negative, count, -places⟩ := by
  have short := length_toDigits_mod some count
  refine ⟨⟨negative, Nat.toDigits 10 (count / Nat.pow 10 places), .some (List.replicate
      (places - (Nat.toDigits 10 (count % Nat.pow 10 places)).length) '0' ++
        Nat.toDigits 10 (count % Nat.pow 10 places)), none⟩, ?_, rfl,
          ⟨isDigits_toDigits _, ?_, ?_, nofun⟩, ?_⟩
  · simp [Numeral.text, Numeral.fractionText, Numeral.exponentText, fixedPoint]
  · intro zero
    by_cases positive : 0 < count / Nat.pow 10 places
    · exact absurd zero (Json.head?_toDigits positive)
    · dsimp only
      rw [Nat.eq_zero_of_not_pos positive]
      rfl
  · intro digits same
    cases same
    exact isDigits_zeros_append _ (isDigits_toDigits _)
  · have whole : Nat.ofDigitChars 10 (Nat.toDigits 10 (count / Nat.pow 10 places) ++ (List.replicate
        (places - (Nat.toDigits 10 (count % Nat.pow 10 places)).length) '0' ++
          Nat.toDigits 10 (count % Nat.pow 10 places))) 0 = count := by
      rw [Nat.ofDigitChars_append, Nat.ofDigitChars_ten_toDigits, Nat.ofDigitChars_append,
        Nat.ofDigitChars_replicate_zero, Nat.ofDigitChars_eq_ofDigitChars_zero,
        Nat.ofDigitChars_ten_toDigits,
        ← Nat.mul_assoc, ← Nat.pow_add, Nat.add_sub_cancel' short]
      exact Nat.div_add_mod count (10 ^ places)
    simp only [Numeral.value, ofParts, Numeral.exponentValue, Option.getD_some, whole,
      List.length_append, List.length_replicate]
    congr 1
    omega

open Binary64 (nearestPlace units depth binade)

theorem isFinite_toBinary64 {d : Decimal}
    (within : nearestPlace (d.digits * 10 ^ d.exponent.toNat) (10 ^ (-d.exponent).toNat) <
      Binary64.places) :
    d.toBinary64.isFinite = true := by
  have denominator : 0 < 10 ^ (-d.exponent).toNat := Nat.pow_pos (by decide)
  have finite : ∀ place, place < Binary64.places →
      (Binary64.ofPlace d.negative place).isFinite = true := by
    intro place low
    rw [Binary64.ofPlace, dif_pos (show place < 0x7ff0000000000000 from low)]
    rfl
  unfold toBinary64
  split
  · exact finite 0 (by decide)
  split
  · rename_i large high
    obtain ⟨e, far, huge⟩ := huge_of_top (Nat.pos_of_ne_zero (not_or.1 large).1) high
    have beyond := Binary64.places_le_nearestPlace denominator far huge
    omega
  · exact finite _ within

end Decimal

namespace Binary64

open Decimal (roundHalfEven)

/-- How many steps of a number of places are nearest to the magnitude at a place. -/
def fixedCount (places place : Nat) :
    Nat := roundHalfEven (units place * Nat.pow 10 places) (Nat.pow 2 depth)

/-- The number nearest to the decimal with so many places that is nearest to a number. -/
def roundedTo (places : Nat) : Binary64 → Binary64
  | .finite negative place => Decimal.toBinary64 ⟨negative, fixedCount places place, -places⟩
  | v => v

theorem nearestPlace_lt_places {num den e : Nat} (positive : 0 < den) (near : e ≤ 1023)
    (small : num < 2 ^ e * den) : nearestPlace num den < places := by
  have scaled : 2 ^ depth * num / den < 2 ^ (depth + e) := by
    rw [Nat.div_lt_iff_lt_mul positive, Nat.pow_add, Nat.mul_assoc]
    exact Nat.mul_lt_mul_of_pos_left small (Nat.two_pow_pos depth)
  have magnitude : (2 ^ depth * num / den).log2 < 2097 := by
    by_cases zero : 2 ^ depth * num / den = 0
    · rw [zero]
      decide
    · have below := (Nat.log2_lt zero).2 scaled
      rw [depth_eq] at *
      omega
  have shift : shiftOf num den ≤ 2044 := by
    rw [shiftOf]
    omega
  have leading : 2 ^ depth * num / (den * 2 ^ shiftOf num den) < 2 ^ 53 := by
    rw [← Nat.div_div_eq_div_mul, Nat.div_lt_iff_lt_mul (Nat.two_pow_pos _), ← Nat.pow_add]
    calc 2 ^ depth * num / den < 2 ^ ((2 ^ depth * num / den).log2 + 1) := Nat.lt_log2_self
      _ ≤ 2 ^ (53 + shiftOf num den) := Nat.pow_le_pow_right (by decide) (by rw [shiftOf]; omega)
  have shifts : binade * shiftOf num den ≤ binade * 2044 := Nat.mul_le_mul_left _ shift
  have room : binade * 2044 + 2 ^ 53 < places := by decide
  rw [nearestPlace_eq]
  split
  · omega
  split
  · omega
  · omega

theorem roundHalfEven_le (num den : Nat) : roundHalfEven num den ≤ num / den + 1 := by
  unfold roundHalfEven
  dsimp only
  split
  · omega
  split
  · omega
  · omega

theorem roundHalfEven_mul {den : Nat} (positive : 0 < den) (k : Nat) :
    roundHalfEven (den * k) den = k := by
  simp only [roundHalfEven, Nat.mul_div_cancel_left k positive, Nat.mul_mod_right, Nat.mul_zero,
    if_pos positive]

theorem nearestPlace_fixedCount (places : Nat) {place : Nat} (finite : place < Binary64.places) :
    nearestPlace (fixedCount places place) (10 ^ places) < Binary64.places := by
  have denominator : 0 < 10 ^ places := Nat.pow_pos (by decide)
  have unit : 0 < 2 ^ depth := Nat.two_pow_pos depth
  by_cases whole : 2 ^ depth ∣ units place
  · -- a whole number is its own rounding
    obtain ⟨k, steps⟩ := whole
    have count : fixedCount places place = k * 10 ^ places := by
      rw [fixedCount, Nat.pow_eq, Nat.pow_eq, steps, Nat.mul_assoc, roundHalfEven_mul unit]
    have exact : 2 ^ depth * fixedCount places place = 10 ^ places * units place := by
      rw [count, steps, Nat.mul_comm k, Nat.mul_left_comm]
    rw [nearestPlace_of_exact denominator exact]
    exact finite
  · -- any other is far below the greatest binade
    have low : units place < 2 ^ (depth + 53) := by
      by_cases small : place < 2 * binade
      · rw [units_of_small small]
        calc place < 2 ^ 53 := small
          _ ≤ 2 ^ (depth + 53) := Nat.pow_le_pow_right (by decide) (Nat.le_add_left _ _)
      · rw [units_of_large (Nat.not_lt.1 small)] at whole ⊢
        have below : place / binade - 1 < depth := by
          apply Nat.lt_of_not_le
          intro above
          exact whole (Nat.dvd_mul_left_of_dvd (Nat.pow_dvd_pow 2 above) _)
        have remainder : place % binade < binade := Nat.mod_lt _ (by decide)
        have digits : binade + place % binade < 2 ^ 53 := by
          rw [binade_eq] at *
          omega
        calc (binade + place % binade) * 2 ^ (place / binade - 1)
            < 2 ^ 53 * 2 ^ (place / binade - 1) :=
              Nat.mul_lt_mul_of_pos_right digits (Nat.two_pow_pos _)
          _ = 2 ^ (53 + (place / binade - 1)) := (Nat.pow_add ..).symm
          _ ≤ 2 ^ (depth + 53) := Nat.pow_le_pow_right (by decide) (by omega)
    have quotient : units place * 10 ^ places / 2 ^ depth ≤ 2 ^ 53 * 10 ^ places := by
      apply Nat.div_le_of_le_mul
      rw [← Nat.mul_assoc, ← Nat.pow_add]
      exact Nat.mul_le_mul_right _ (Nat.le_of_lt low)
    have count : fixedCount places place ≤ 2 ^ 53 * 10 ^ places + 1 :=
      Nat.le_trans (roundHalfEven_le _ _) (Nat.succ_le_succ quotient)
    apply nearestPlace_lt_places denominator (by decide : 54 ≤ 1023)
    calc fixedCount places place ≤ 2 ^ 53 * 10 ^ places + 1 := count
      _ < 2 ^ 54 * 10 ^ places := by omega

theorem isFinite_roundedTo (places : Nat) {v : Binary64} (finite : v.isFinite) :
    (v.roundedTo places).isFinite = true := by
  cases v with
  | nan => cases finite
  | infinite => cases finite
  | finite negative place =>
    apply Decimal.isFinite_toBinary64
    have near := nearestPlace_fixedCount places place.isLt
    dsimp only
    rw [Int.neg_neg, Int.toNat_natCast, show (-(places : Int)).toNat = 0 by
      omega, Nat.pow_zero, Nat.mul_one]
    exact near

theorem exists_numeral_toFixed {places : Nat} (some : 0 < places) {v : Binary64}
    (finite : v.isFinite) :
    ∃ numeral : Numeral, v.toFixed places = String.ofList numeral.text ∧ numeral.exponent = none ∧
      numeral.WellFormed ∧ numeral.value.value.toBinary64 = v.roundedTo places := by
  cases v with
  | nan => cases finite
  | infinite => cases finite
  | finite negative place =>
    obtain ⟨numeral, text, positional, wellFormed, value⟩ :=
      Decimal.exists_numeral_fixedPoint negative some (fixedCount places place)
    refine ⟨numeral, ?_, positional, wellFormed, ?_⟩
    · rw [text]
      rfl
    · rw [value]
      rfl

end Binary64

end Telemetry
