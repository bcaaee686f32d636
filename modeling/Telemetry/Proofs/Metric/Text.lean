import Telemetry.Metric.Basic
import Telemetry.Proofs.Decimal.Text

namespace Telemetry.Value

/-- A value as an update path brings it: a reading loses what does not fit in six places. -/
def inPath : Value → Value
  | gauge reading => gauge (reading.roundedTo 6)
  | counter delta => counter delta

theorem kind_inPath (value : Value) : value.inPath.kind = value.kind := by
  cases value <;> rfl

theorem isFinite_inPath {value : Value} (finite : value.isFinite) :
    value.inPath.isFinite = true := by
  cases value with
  | gauge reading => exact Binary64.isFinite_roundedTo 6 finite
  | counter delta => rfl

/-- Text that a value is read from, and that has nothing but digits, a sign and a point. -/
structure Writes (text : String) (value : Value) : Prop where
  nonempty : text ≠ ""
  positional : ∀ c ∈ text.toList, Decimal.IsPositional c
  read : value.kind.readValue text = .ok value

theorem writes_gauge {numeral : Json.Numeral} (positional : numeral.exponent = none)
    (wellFormed : numeral.WellFormed) {reading : Binary64}
    (value : numeral.value.value.toBinary64 = reading) (finite : reading.isFinite) :
    Writes (String.ofList numeral.text) (gauge reading) where
  nonempty := by
    intro empty
    apply Decimal.text_ne_nil wellFormed
    rw [← String.toList_ofList (l := numeral.text), empty]
    rfl
  positional := by
    intro c member
    rw [String.toList_ofList] at member
    exact Decimal.isPositional_of_mem_text wellFormed positional member
  read := by
    simp only [kind, Kind.readValue, Decimal.ofText?_text wellFormed positional, value, finite,
      if_true]

theorem writes_counter (delta : Int64) :
    Writes (String.ofList (Decimal.writeInt64 delta)) (counter delta) where
  nonempty := by
    intro empty
    apply Decimal.writeInt64_ne_nil delta
    rw [← String.toList_ofList (l := Decimal.writeInt64 delta), empty]
    rfl
  positional := by
    intro c member
    rw [String.toList_ofList] at member
    exact Decimal.isPositional_of_mem_writeInt64 member
  read := by
    simp only [kind, Kind.readValue, String.toList_ofList, Decimal.readInt64?_writeInt64]

theorem writes_toText {value : Value} (finite : value.isFinite) : Writes value.toText value := by
  cases value with
  | gauge reading =>
    obtain ⟨numeral, text, positional, wellFormed, back⟩ := Decimal.exists_numeral_toText finite
    rw [toText, text]
    exact writes_gauge positional wellFormed back finite
  | counter delta => exact writes_counter delta

theorem writes_toPathSegment {value : Value} (finite : value.isFinite) :
    Writes value.toPathSegment value.inPath := by
  cases value with
  | gauge reading =>
    obtain ⟨numeral, text, positional, wellFormed, back⟩ :=
      Binary64.exists_numeral_toFixed (by decide : 0 < 6) finite
    rw [toPathSegment, text]
    exact writes_gauge positional wellFormed back (Binary64.isFinite_roundedTo 6 finite)
  | counter delta => exact writes_counter delta

end Telemetry.Value
