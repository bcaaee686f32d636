import Telemetry.Decimal.Literal
import Telemetry.Decimal.Layout

namespace Telemetry.Decimal

def FitsInt64 (n : Int) : Prop := -0x8000000000000000 ≤ n ∧ n < 0x8000000000000000

instance (n : Int) : Decidable (FitsInt64 n) := inferInstanceAs (Decidable (_ ∧ _))

def toInt64? (n : Int) : Option Int64 := if FitsInt64 n then some (Int64.ofInt n) else none

/-- The integer that a text writes with an optional sign and ASCII digits alone, if it fits. -/
def readInt64? (text : List Char) : Option Int64 :=
  let (negative, digits) := takeSign text
  if digits ≠ [] ∧ digits.all Char.isDigit then
    let size : Int := Nat.ofDigitChars 10 digits 0
    toInt64? (if negative then -size else size)
  else none

def writeInt64 (n : Int64) : List Char := sign (n.toInt < 0) (Nat.toDigits 10 n.toInt.natAbs)

theorem fitsInt64_toInt (m : Int64) : FitsInt64 m.toInt := ⟨Int64.le_toInt m, Int64.toInt_lt m⟩

theorem toInt64?_toInt (m : Int64) : toInt64? m.toInt = some m := by
  simp [toInt64?, fitsInt64_toInt]

theorem toInt64?_eq_some {n : Int} {m : Int64} : toInt64? n = some m ↔ m.toInt = n := by
  constructor
  · intro h
    by_cases fits : FitsInt64 n
    · simp only [toInt64?, fits, if_true, Option.some.injEq] at h
      have := fits.1
      have := fits.2
      rw [← h, Int64.toInt_ofInt, Int.bmod_def, show Int64.size = 0x10000000000000000 from rfl]
      omega
    · simp [toInt64?, fits] at h
  · rintro rfl
    exact toInt64?_toInt m

theorem exists_toInt64? {n : Int} (fits : FitsInt64 n) :
    ∃ m, toInt64? n = some m ∧ m.toInt = n := by
  have found : toInt64? n = some (Int64.ofInt n) := if_pos fits
  exact ⟨_, found, toInt64?_eq_some.1 found⟩

theorem toInt64?_eq_none {n : Int} : toInt64? n = none ↔ ¬ FitsInt64 n := by
  by_cases fits : FitsInt64 n <;> simp [toInt64?, fits]

theorem takeSign_of_digit {c : Char} {rest : List Char} (digit : c.isDigit) :
    takeSign (c :: rest) = (false, c :: rest) := by
  have notMinus : c ≠ '-' := by rintro rfl; revert digit; decide
  have notPlus : c ≠ '+' := by rintro rfl; revert digit; decide
  unfold takeSign
  split <;> simp_all

theorem all_isDigit_toDigits (n : Nat) : (Nat.toDigits 10 n).all Char.isDigit = true := by
  rw [List.all_eq_true]
  intro c member
  exact Nat.isDigit_of_mem_toDigits (by decide) (by decide) member

theorem takeSign_sign_toDigits (negative : Bool) (n : Nat) :
    takeSign (sign negative (Nat.toDigits 10 n)) = (negative, Nat.toDigits 10 n) := by
  cases negative
  · have digits := all_isDigit_toDigits n
    have written : Nat.toDigits 10 n ≠ [] := by simp
    revert digits written
    simp only [sign]
    cases Nat.toDigits 10 n with
    | nil => simp
    | cons c rest =>
      intro digits _
      exact takeSign_of_digit (by simpa using (List.all_eq_true.1 digits) c (by simp))
  · rfl

theorem readInt64?_writeInt64 (n : Int64) : readInt64? (writeInt64 n) = some n := by
  unfold readInt64? writeInt64
  simp only [takeSign_sign_toDigits]
  rw [if_pos ⟨by simp, all_isDigit_toDigits _⟩, toInt64?_eq_some,
    Nat.ofDigitChars_toDigits (by decide) (by decide)]
  by_cases negative : n.toInt < 0
  · simp only [negative, decide_true, if_true]
    omega
  · simp only [negative, decide_false, Bool.false_eq_true, if_false]
    omega

end Telemetry.Decimal
