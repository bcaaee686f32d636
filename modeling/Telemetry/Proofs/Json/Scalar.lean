import Telemetry.Proofs.Json.Number

namespace Telemetry.Json

def Reads {α : Type} (read : Reader α) (bound : Nat) (text : Bytes) (value : α) : Prop :=
  ∀ rest, Stops rest → read bound (text ++ rest) = .ok (value, rest)

theorem skipBlank_cons {b : UInt8} (solid : isBlank b = false) (rest : Bytes) :
    skipBlank (b :: rest) = b :: rest :=
  List.dropWhile_cons_of_neg (by simp [solid])

theorem isBlank_of_beginsNumber {b : UInt8} (begins : beginsNumber b = true) :
    isBlank b = false := by
  rcases Bool.or_eq_true_iff.1 begins with digit | minus
  · simp only [isDigit, Bool.and_eq_true, decide_eq_true_eq, UInt8.le_iff_toNat_le] at digit
    simp only [isBlank, Bool.or_eq_false_iff, beq_eq_false_iff_ne, ne_eq, ← UInt8.toNat_inj]
    have least : 0x30 ≤ b.toNat := digit.1
    have blanks : (0x20 : UInt8).toNat = 0x20 ∧ (0x0a : UInt8).toNat = 0x0a ∧
        (0x09 : UInt8).toNat = 0x09 ∧
        (0x0d : UInt8).toNat = 0x0d := ⟨rfl, rfl, rfl, rfl⟩
    omega
  · rw [beq_iff_eq.1 minus]
    rfl

/-! ### Numbers -/

theorem head?_toDigits {n : Nat} (positive : 0 < n) : (Nat.toDigits 10 n).head? ≠ some '0' := by
  induction n using Nat.strongRecOn with
  | _ n ih =>
    by_cases small : n < 10
    · have digit : ∀ m < 10, 0 < m → m.digitChar ≠ '0' := by decide
      rw [Nat.toDigits_of_lt_base small, List.head?_cons]
      exact fun same => digit n small positive (Option.some.inj same)
    · have shorter := ih (n / 10) (by omega) (by omega)
      rw [Nat.toDigits_of_base_le (by decide) (by omega), List.head?_append]
      cases head : (Nat.toDigits 10 (n / 10)).head? with
      | none => exact absurd (List.head?_eq_none_iff.1 head) Nat.toDigits_ne_nil
      | some c =>
        rw [head] at shorter
        exact shorter

theorem isDigits_toDigits (n : Nat) : IsDigits (Nat.toDigits 10 n) :=
  ⟨Nat.toDigits_ne_nil, fun c member => Nat.isDigit_of_mem_toDigits (by decide) (by decide) member⟩

theorem isDigits_zero : IsDigits ['0'] := by
  refine ⟨List.cons_ne_nil _ _, ?_⟩
  intro c member
  rw [List.mem_singleton.1 member]
  rfl

theorem isDigits_zeros_append (zeros : Nat) {digits : List Char} (several : IsDigits digits) :
    IsDigits (List.replicate zeros '0' ++ digits) := by
  refine ⟨by simp [several.1], ?_⟩
  intro c member
  rcases List.mem_append.1 member with zero | digit
  · rw [List.eq_of_mem_replicate zero]
    rfl
  · exact several.2 c digit

theorem isDigits_append_zeros (zeros : Nat) {digits : List Char} (several : IsDigits digits) :
    IsDigits (digits ++ List.replicate zeros '0') := by
  refine ⟨by simp [several.1], ?_⟩
  intro c member
  rcases List.mem_append.1 member with digit | zero
  · exact several.2 c digit
  · rw [List.eq_of_mem_replicate zero]
    rfl

/-- A numeral that writes digits times a power of ten, with zeros behind the digits or without. -/
def Numeral.Writes (numeral : Numeral) (negative : Bool) (digits : Nat) (exponent : Int) : Prop :=
  numeral.WellFormed ∧
    ∃ zeros : Nat, numeral.value.value = ⟨negative, digits * 10 ^ zeros, exponent - zeros⟩

variable {digits : Nat}

theorem writes_whole (negative : Bool) (positive : 0 < digits) (zeros : Nat) :
    Numeral.Writes ⟨negative, Nat.toDigits 10 digits ++ List.replicate zeros '0', some ['0'], none⟩
      negative digits zeros := by
  have several := isDigits_toDigits digits
  have lead : (Nat.toDigits 10 digits ++ List.replicate zeros '0').head? ≠ some '0' := by
    rw [List.head?_append]
    have nonzero := head?_toDigits positive
    cases head : (Nat.toDigits 10 digits).head? with
    | none => exact absurd (List.head?_eq_none_iff.1 head) several.1
    | some c =>
      rw [head] at nonzero
      exact nonzero
  refine ⟨⟨isDigits_append_zeros zeros several, fun zero => absurd zero lead, ?_, ?_⟩, zeros + 1,
    ?_⟩
  · intro places same
    cases same
    exact isDigits_zero
  · intro negative places same
    cases same
  · have value :
        Nat.ofDigitChars 10 (Nat.toDigits 10 digits ++ List.replicate zeros '0' ++ ['0']) 0 =
        digits * 10 ^ (zeros + 1) := by
      have all : List.replicate zeros '0' ++ ['0'] = List.replicate (zeros + 1) '0' :=
        List.replicate_succ'.symm
      rw [List.append_assoc, all, Nat.ofDigitChars_append, Nat.ofDigitChars_ten_toDigits,
        Nat.ofDigitChars_replicate_zero, Nat.mul_comm]
    have exponent :
        (0 : Int) - ((['0'] : List Char).length : Int) = zeros - ((zeros + 1 : Nat) : Int) := by
      rw [List.length_singleton]
      omega
    simp only [Numeral.value, Decimal.ofParts, Numeral.exponentValue, Option.getD_some, value,
      exponent]

theorem writes_below (negative : Bool) (digits places : Nat)
    (short : (Nat.toDigits 10 digits).length ≤ places) :
    Numeral.Writes
      ⟨negative, ['0'], some (List.replicate (places - (Nat.toDigits 10 digits).length) '0' ++
        Nat.toDigits 10 digits), none⟩ negative digits (-places) := by
  have several := isDigits_toDigits digits
  refine ⟨⟨isDigits_zero, fun _ => rfl, ?_, ?_⟩, 0, ?_⟩
  · intro written same
    cases same
    exact isDigits_zeros_append _ several
  · intro negative written same
    cases same
  · have value :
        Nat.ofDigitChars 10 (['0'] ++ (List.replicate (places - (Nat.toDigits 10 digits).length) '0'
          ++ Nat.toDigits 10 digits)) 0 = digits * 10 ^ 0 := by
      have lead : Nat.ofDigitChars 10 ['0'] 0 = 0 := rfl
      rw [Nat.ofDigitChars_append, Nat.ofDigitChars_append, lead, Nat.ofDigitChars_replicate_zero,
        Nat.mul_zero, Nat.ofDigitChars_ten_toDigits, Nat.pow_zero, Nat.mul_one]
    simp only [Numeral.value, Decimal.ofParts, Numeral.exponentValue, Option.getD_some, value]
    congr 1
    simp
    omega

theorem writes_across (negative : Bool) (positive : 0 < digits) {places : Nat}
    (fractional : 0 < places) (long : places < (Nat.toDigits 10 digits).length) :
    Numeral.Writes
      ⟨negative, (Nat.toDigits 10 digits).take ((Nat.toDigits 10 digits).length - places),
        some ((Nat.toDigits 10 digits).drop ((Nat.toDigits 10 digits).length - places)), none⟩
      negative digits (-places) := by
  have several := isDigits_toDigits digits
  have nonzero := head?_toDigits positive
  have parts :=
    List.take_append_drop ((Nat.toDigits 10 digits).length - places) (Nat.toDigits 10 digits)
  have value : Nat.ofDigitChars 10 (Nat.toDigits 10 digits) 0 = digits :=
    Nat.ofDigitChars_ten_toDigits
  generalize Nat.toDigits 10 digits = written at *
  have whole : written.take (written.length - places) ≠ [] := by
    rw [ne_eq, List.take_eq_nil_iff]
    rintro (none | none)
    · omega
    · exact several.1 none
  refine ⟨⟨⟨whole, ?_⟩, ?_, ?_, ?_⟩, 0, ?_⟩
  · intro c member
    exact several.2 c (List.mem_of_mem_take member)
  · intro zero
    have count : written.length - places ≠ 0 := by omega
    dsimp only at zero
    rw [List.head?_take, if_neg count] at zero
    exact absurd zero nonzero
  · intro fraction same
    cases same
    refine ⟨?_, fun c member => several.2 c (List.mem_of_mem_drop member)⟩
    rw [ne_eq, List.drop_eq_nil_iff]
    omega
  · intro negative fraction same
    cases same
  · simp only [Numeral.value, Decimal.ofParts, Numeral.exponentValue, Option.getD_some, parts,
      value, List.length_drop]
    congr 1
    · omega
    · omega

theorem writes_scientific (negative : Bool) (positive : 0 < digits) {first : Char}
    {others : List Char} (written : Nat.toDigits 10 digits = first :: others) (exponent : Int) :
    Numeral.Writes ⟨negative, [first], if others = [] then none else some others,
      some (decide (exponent + others.length < 0),
        Nat.toDigits 10 (exponent + others.length).natAbs)⟩
      negative digits exponent := by
  have several := isDigits_toDigits digits
  have nonzero := head?_toDigits positive
  have value : Nat.ofDigitChars 10 (Nat.toDigits 10 digits) 0 = digits :=
    Nat.ofDigitChars_ten_toDigits
  rw [written] at several nonzero value
  refine ⟨⟨⟨by simp, ?_⟩, fun _ => rfl, ?_, ?_⟩, 0, ?_⟩
  · intro c member
    rw [List.mem_singleton.1 member]
    exact several.2 first (List.mem_cons_self ..)
  · intro fraction same
    by_cases single : others = []
    · rw [single] at same
      cases same
    · simp only [single, if_false, Option.some.injEq] at same
      subst same
      exact ⟨single, fun c member => several.2 c (List.mem_cons_of_mem _ member)⟩
  · intro sign power same
    cases same
    exact isDigits_toDigits _
  · have fraction : (if others = [] then none else some others).getD [] = others := by
      by_cases single : others = [] <;> simp [single]
    have power :
          Numeral.exponentValue ⟨negative, [first], if others = [] then none else some others,
            some (decide (exponent + others.length < 0),
              Nat.toDigits 10 (exponent + others.length).natAbs)⟩ =
        exponent + others.length := by
      simp only [Numeral.exponentValue, Nat.ofDigitChars_ten_toDigits, decide_eq_true_eq]
      split <;> omega
    simp only [Numeral.value, Decimal.ofParts, fraction, power, List.singleton_append, value]
    congr 1
    · omega
    · omega

theorem exists_numeral (negative : Bool) (positive : 0 < digits) (exponent : Int) :
    ∃ numeral : Numeral, numeral.text = Decimal.sign negative (decimalNumber digits exponent) ∧
      numeral.Writes negative digits exponent := by
  unfold decimalNumber
  dsimp only
  split
  · split
    case isTrue whole =>
      obtain ⟨zeros, rfl⟩ := Int.eq_ofNat_of_zero_le whole
      refine ⟨_, ?_, writes_whole negative positive zeros⟩
      simp [Numeral.text, Numeral.fractionText, Numeral.exponentText, Decimal.positional]
    case isFalse fraction =>
      obtain ⟨k, rfl⟩ := Int.eq_negSucc_of_lt_zero (Int.not_le.1 fraction)
      by_cases short : (Nat.toDigits 10 digits).length ≤ k + 1
      · refine ⟨_, ?_, writes_below negative digits (k + 1) short⟩
        simp [Numeral.text, Numeral.fractionText, Numeral.exponentText, Decimal.positional, short]
      · refine ⟨_, ?_, writes_across negative positive (Nat.succ_pos k) (Nat.not_le.1 short)⟩
        simp [Numeral.text, Numeral.fractionText, Numeral.exponentText, Decimal.positional, short]
  · obtain ⟨first, others, written⟩ := List.exists_cons_of_ne_nil (isDigits_toDigits digits).1
    refine ⟨_, ?_, writes_scientific negative positive written exponent⟩
    have leading : exponent + (first :: others).length - 1 = exponent + others.length := by
      rw [List.length_cons]
      omega
    rw [written, leading]
    cases others with
    | nil => simp [Numeral.text, Numeral.fractionText, Numeral.exponentText, Decimal.scientific]
    | cons second rest =>
      simp [Numeral.text, Numeral.fractionText, Numeral.exponentText, Decimal.scientific]

theorem onFirst_cons {α : Type} (read : UInt8 → Bytes → Except Fault (α × Bytes)) (bound : Nat)
    {b : UInt8} (solid : isBlank b = false) (rest : Bytes) : onFirst read bound (b :: rest) =
      read b rest := by
  rw [onFirst, skipBlank_cons solid]

theorem exists_numeral_binary64 {v : Binary64} (finite : v.isFinite) :
    ∃ numeral : Numeral, ofBinary64 v = Bytes.ofAscii numeral.text ∧ numeral.WellFormed ∧
      numeral.value.value.toBinary64 = v := by
  cases v with
  | nan => cases finite
  | infinite => cases finite
  | finite negative place =>
    by_cases zero : place.val = 0
    · refine ⟨⟨negative, ['0'], some ['0'], none⟩, ?_, ⟨isDigits_zero, fun _ => rfl, ?_, ?_⟩, ?_⟩
      · simp only [ofBinary64, if_pos zero]
        rfl
      · intro fraction same
        cases same
        exact isDigits_zero
      · intro sign power same
        cases same
      · have same : place = ⟨0, by decide⟩ := Fin.ext zero
        rw [same]
        rfl
    · have nonzero : 0 < place.val := Nat.pos_of_ne_zero zero
      obtain ⟨numeral, text, wellFormed, zeros, value⟩ :=
        exists_numeral negative (Binary64.shortest_pos .toEven nonzero)
          (Binary64.shortest .toEven place.val).2
      refine ⟨numeral, ?_, wellFormed, ?_⟩
      · simp only [ofBinary64, if_neg zero, text]
      · rw [value, Decimal.toBinary64_shortest .toEven negative nonzero place.isLt,
          Binary64.ofPlace, dif_pos place.isLt]

theorem exists_numeral_int64 (n : Int64) :
    ∃ numeral : Numeral, ofInt64 n = Bytes.ofAscii numeral.text ∧ numeral.WellFormed ∧
      numeral.value.toInt64? = some n := by
  refine ⟨⟨n.toInt < 0, Nat.toDigits 10 n.toInt.natAbs, none, none⟩, ?_,
    ⟨isDigits_toDigits _, ?_, ?_, ?_⟩, ?_⟩
  · simp [ofInt64, Decimal.writeInt64, Numeral.text, Numeral.fractionText, Numeral.exponentText]
  · intro zero
    by_cases nonzero : 0 < n.toInt.natAbs
    · exact absurd zero (head?_toDigits nonzero)
    · have none : n.toInt.natAbs = 0 := by omega
      dsimp only
      rw [none]
      rfl
  · intro fraction same
    cases same
  · intro sign power same
    cases same
  · have back := Decimal.toInt64?_toInt n
    simp only [Number.toInt64?, Numeral.value, Decimal.ofParts, Option.getD_none, List.append_nil,
      Nat.ofDigitChars_ten_toDigits, Option.isNone_none, Bool.and_self, Bool.true_and]
    by_cases negative : n.toInt < 0
    · have nonzero : (n.toInt.natAbs == 0) = false := beq_eq_false_iff_ne.2 (by omega)
      have size : -(n.toInt.natAbs : Int) = n.toInt := by omega
      simp only [negative, nonzero, size, back, decide_true, Bool.and_false, Bool.not_false,
        if_true]
    · have size : (n.toInt.natAbs : Int) = n.toInt := by omega
      simp only [negative, size, back, decide_false, Bool.false_and, Bool.not_false,
        Bool.false_eq_true, if_true, if_false]

theorem reads_binary64 {v : Binary64} (finite : v.isFinite) (bound : Nat) :
    Reads binary64 bound (ofBinary64 v) v := by
  intro rest stops
  obtain ⟨numeral, text, wellFormed, value⟩ := exists_numeral_binary64 finite
  have parsed := Numeral.number_text wellFormed stops
  obtain ⟨b, others, bytes, begins⟩ := Numeral.ofAscii_text wellFormed
  rw [bytes, List.cons_append] at parsed
  have fits : numeral.value.toBinary64? = some v := by
    simp only [Number.toBinary64?, value, finite, if_true]
  rw [text, bytes, List.cons_append, binary64, onFirst_cons _ _ (isBlank_of_beginsNumber begins),
    if_pos begins, parsed, ok_bind]
  simp only [fits]
  rfl

theorem reads_int64 (n : Int64) (bound : Nat) : Reads int64 bound (ofInt64 n) n := by
  intro rest stops
  obtain ⟨numeral, text, wellFormed, value⟩ := exists_numeral_int64 n
  have parsed := Numeral.number_text wellFormed stops
  obtain ⟨b, others, bytes, begins⟩ := Numeral.ofAscii_text wellFormed
  rw [bytes, List.cons_append] at parsed
  rw [text, bytes, List.cons_append, int64, onFirst_cons _ _ (isBlank_of_beginsNumber begins),
    if_pos begins, parsed, ok_bind]
  simp only [value]
  rfl

end Telemetry.Json
