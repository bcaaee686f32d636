import Telemetry.Json.Reader
import Telemetry.Json.Writer
import Telemetry.Proofs.Decimal.Shortest
import Telemetry.Proofs.Result
import Telemetry.Proofs.Span

namespace Telemetry.Json

/-- The parts in which a number is written; an exponent has a sign of its own. -/
structure Numeral where
  negative : Bool
  whole : List Char
  fraction : Option (List Char) := none
  exponent : Option (Bool × List Char) := none

def IsDigits (text : List Char) : Prop := text ≠ [] ∧ ∀ c ∈ text, c.isDigit = true

def Stops (rest : Bytes) : Prop :=
  ∀ b ∈ rest.head?, isDigit b = false ∧ b ≠ 0x2e ∧ b ≠ 0x65 ∧ b ≠ 0x45

namespace Numeral

def fractionText (numeral : Numeral) : List Char :=
  match numeral.fraction with
  | some digits => '.' :: digits
  | none => []

def exponentText (numeral : Numeral) : List Char :=
  match numeral.exponent with
  | some (negative, digits) => 'e' :: (if negative then '-' else '+') :: digits
  | none => []

def text (numeral : Numeral) : List Char :=
  Decimal.sign numeral.negative (numeral.whole ++ (numeral.fractionText ++ numeral.exponentText))

def exponentValue (numeral : Numeral) : Int :=
  match numeral.exponent with
  | some (negative, digits) =>
    if negative then -(Nat.ofDigitChars 10 digits 0 : Int) else Nat.ofDigitChars 10 digits 0
  | none => 0

def value (numeral : Numeral) : Number :=
  ⟨.ofParts numeral.negative numeral.whole (numeral.fraction.getD []) numeral.exponentValue,
    numeral.fraction.isNone && numeral.exponent.isNone⟩

/-- A literal of JSON: digits where they must be, and no zero ahead of others. -/
structure WellFormed (numeral : Numeral) : Prop where
  whole : IsDigits numeral.whole
  lead : numeral.whole.head? = some '0' → numeral.whole.length = 1
  fraction : ∀ digits, numeral.fraction = some digits → IsDigits digits
  exponent : ∀ negative digits, numeral.exponent = some (negative, digits) → IsDigits digits

end Numeral

theorem stops_nil : Stops [] := by
  intro b member
  cases member

theorem stops_cons {b : UInt8} (rest : Bytes)
    (other : isDigit b = false ∧ b ≠ 0x2e ∧ b ≠ 0x65 ∧ b ≠ 0x45) : Stops (b :: rest) := by
  intro c member
  cases member
  exact other

/-! ### Digits -/

theorem toNat_of_isDigit {c : Char} (digit : c.isDigit = true) :
    0x30 ≤ c.toNat ∧ c.toNat ≤ 0x39 := by
  simp only [Char.isDigit, Bool.and_eq_true, decide_eq_true_eq] at digit
  exact ⟨digit.1, digit.2⟩

theorem toNat_toUInt8_of_isDigit {c : Char} (digit : c.isDigit = true) :
    c.toNat.toUInt8.toNat = c.toNat := by
  have range := toNat_of_isDigit digit
  rw [Nat.toUInt8, UInt8.toNat_ofNat']
  omega

theorem isDigit_toUInt8 {c : Char} (digit : c.isDigit = true) : isDigit c.toNat.toUInt8 = true := by
  have range := toNat_of_isDigit digit
  have same := toNat_toUInt8_of_isDigit digit
  simp only [isDigit, Bool.and_eq_true, decide_eq_true_eq, UInt8.le_iff_toNat_le, same]
  exact range

theorem ofNat_toUInt8 {c : Char} (digit : c.isDigit = true) :
    Char.ofNat c.toNat.toUInt8.toNat = c := by
  rw [toNat_toUInt8_of_isDigit digit, Char.ofNat_toNat]

theorem spanDigits_append {digits : List Char} (all : ∀ c ∈ digits, c.isDigit = true) {rest : Bytes}
    (stops : ∀ b ∈ rest.head?, isDigit b = false) :
    spanDigits (Bytes.ofAscii digits ++ rest) = (digits, rest) := by
  have allBytes : ∀ b ∈ Bytes.ofAscii digits, isDigit b = true := by
    intro b member
    obtain ⟨c, inside, rfl⟩ := List.mem_map.1 member
    exact isDigit_toUInt8 (all c inside)
  have back : (Bytes.ofAscii digits).map (fun b => Char.ofNat b.toNat) = digits := by
    rw [Bytes.ofAscii, List.map_map]
    exact (List.map_congr_left fun c inside => ofNat_toUInt8 (all c inside)).trans (List.map_id _)
  have span := span_append allBytes stops
  rw [spanDigits, span.1, span.2, back]

theorem someDigits_append {digits : List Char} (several : IsDigits digits) {rest : Bytes}
    (stops : ∀ b ∈ rest.head?, isDigit b = false) :
    someDigits (Bytes.ofAscii digits ++ rest) = .ok (digits, rest) := by
  rw [someDigits, spanDigits_append several.2 stops]
  obtain _ | ⟨first, others⟩ := digits
  · exact absurd rfl several.1
  · rfl

/-! ### The parts of a literal -/

theorem ofAscii_append (a b : List Char) :
    Bytes.ofAscii (a ++ b) = Bytes.ofAscii a ++ Bytes.ofAscii b :=
  List.map_append

theorem wholePart_append {digits : List Char} (several : IsDigits digits)
    (lead : digits.head? = some '0' → digits.length = 1) {rest : Bytes}
    (stops : ∀ b ∈ rest.head?, isDigit b = false) :
    wholePart (Bytes.ofAscii digits ++ rest) = .ok (digits, rest) := by
  rw [wholePart, someDigits_append several stops]
  split
  case h_1 second others _ same =>
    cases same
    cases lead rfl
  case h_2 => rfl

namespace Numeral

variable {numeral : Numeral} {rest : Bytes}

theorem fractionPart_text (wellFormed : numeral.WellFormed)
    (stops : ∀ b ∈ rest.head?, isDigit b = false ∧ b ≠ 0x2e) :
    fractionPart (Bytes.ofAscii numeral.fractionText ++ rest) = .ok (numeral.fraction, rest) := by
  unfold fractionText
  cases fraction : numeral.fraction with
  | some written =>
    have read := someDigits_append (wellFormed.fraction written fraction) fun b member =>
      (stops b member).1
    change fractionPart (0x2e :: (Bytes.ofAscii written ++ rest)) = _
    rw [fractionPart, read]
    rfl
  | none =>
    cases rest with
    | nil => rfl
    | cons b rest =>
      have notPoint := (stops b rfl).2
      change fractionPart (b :: rest) = _
      rw [fractionPart]
      intro rest' same
      cases same
      exact notPoint rfl

theorem exponentPart_text (wellFormed : numeral.WellFormed) (stops : Stops rest) :
    exponentPart (Bytes.ofAscii numeral.exponentText ++ rest) =
      .ok (numeral.exponent.map fun _ => numeral.exponentValue, rest) := by
  unfold exponentText exponentValue
  cases exponent : numeral.exponent with
  | some exponent' =>
    obtain ⟨negative, written⟩ := exponent'
    have read := someDigits_append (wellFormed.exponent negative written exponent)
      fun b member => (stops b member).1
    cases negative with
    | true =>
      change exponentPart (0x65 :: 0x2d :: (Bytes.ofAscii written ++ rest)) = _
      simp only [exponentPart, true_or, if_true, read, ok_bind]
      rfl
    | false =>
      change exponentPart (0x65 :: 0x2b :: (Bytes.ofAscii written ++ rest)) = _
      simp only [exponentPart, true_or, if_true, read, ok_bind]
      rfl
  | none =>
    cases rest with
    | nil => rfl
    | cons b rest =>
      have other := stops b rfl
      change exponentPart (b :: rest) = _
      unfold exponentPart
      exact if_neg (not_or.2 ⟨other.2.2.1, other.2.2.2⟩)

theorem stops_exponentText (numeral : Numeral) (stops : Stops rest) :
    ∀ b ∈ (Bytes.ofAscii numeral.exponentText ++ rest).head?, isDigit b = false ∧ b ≠ 0x2e := by
  intro b member
  unfold exponentText at member
  cases exponent : numeral.exponent with
  | some exponent =>
    rw [exponent] at member
    cases member
    decide
  | none =>
    rw [exponent] at member
    have other := stops b member
    exact ⟨other.1, other.2.1⟩

theorem stops_fractionText (numeral : Numeral) (stops : Stops rest) :
    ∀ b ∈ (Bytes.ofAscii numeral.fractionText ++
      (Bytes.ofAscii numeral.exponentText ++ rest)).head?,
      isDigit b = false := by
  intro b member
  unfold fractionText at member
  cases fraction : numeral.fraction with
  | some digits =>
    rw [fraction] at member
    cases member
    decide
  | none =>
    rw [fraction] at member
    exact (numeral.stops_exponentText stops b member).1

theorem unsigned_text (wellFormed : numeral.WellFormed) (stops : Stops rest) :
    unsigned numeral.negative
      (Bytes.ofAscii (numeral.whole ++ (numeral.fractionText ++ numeral.exponentText))
        ++ rest) = .ok (numeral.value, rest) := by
  have whole := wholePart_append wellFormed.whole wellFormed.lead (numeral.stops_fractionText stops)
  have fraction := fractionPart_text wellFormed (numeral.stops_exponentText stops)
  have exponent := exponentPart_text wellFormed stops
  rw [ofAscii_append, ofAscii_append, List.append_assoc, List.append_assoc]
  simp only [unsigned, whole, fraction, exponent, ok_bind]
  unfold value exponentValue
  cases numeral.exponent <;> rfl

theorem ofAscii_text (wellFormed : numeral.WellFormed) :
    ∃ b others, Bytes.ofAscii numeral.text = b :: others ∧ beginsNumber b = true := by
  obtain ⟨negative, whole, fraction, exponent⟩ := numeral
  obtain ⟨nonempty, digits⟩ := wellFormed.whole
  cases negative with
  | true => exact ⟨0x2d, _, rfl, rfl⟩
  | false =>
    obtain _ | ⟨c, others⟩ := whole
    · exact absurd rfl nonempty
    · have digit := isDigit_toUInt8 (digits c (List.mem_cons_self ..))
      exact ⟨c.toNat.toUInt8, _, rfl, by rw [beginsNumber, digit, Bool.true_or]⟩

theorem number_text (wellFormed : numeral.WellFormed) (stops : Stops rest) :
    number (Bytes.ofAscii numeral.text ++ rest) = .ok (numeral.value, rest) := by
  have parts := unsigned_text wellFormed stops
  obtain ⟨negative, whole, fraction, exponent⟩ := numeral
  cases negative with
  | true => exact parts
  | false =>
    obtain ⟨nonempty, digits⟩ := wellFormed.whole
    obtain _ | ⟨c, others⟩ := whole
    · exact absurd rfl nonempty
    have notMinus : c.toNat.toUInt8 ≠ 0x2d := by
      have digit := isDigit_toUInt8 (digits c (List.mem_cons_self ..))
      intro minus
      rw [minus] at digit
      cases digit
    unfold number
    split
    case h_1 rest' same =>
      injection same with head
      exact absurd head notMinus
    case h_2 => exact parts

end Numeral
end Telemetry.Json
