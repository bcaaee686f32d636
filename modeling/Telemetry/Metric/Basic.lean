import Telemetry.Decimal.Integer
import Telemetry.Metric.Kind
import Telemetry.Table

namespace Telemetry

inductive Value where
  | gauge (reading : Binary64)
  | counter (delta : Int64)
  deriving DecidableEq, Repr

structure Metric where
  id : String
  value : Value
  deriving DecidableEq, Repr

structure Key where
  id : String
  kind : Kind
  deriving DecidableEq, Repr

inductive Invalid where
  | emptyId
  | unsupportedKind (raw : String)
  | missingValue (id : String) (kind : Kind)
  | badValue (kind : Kind) (raw : String)
  deriving DecidableEq, Repr

namespace Value

def kind : Value → Kind
  | gauge _ => .gauge
  | counter _ => .counter

/-- Whether the value is one that is taken from senders: any delta, but no reading that is infinite
or no number. -/
def isFinite : Value → Bool
  | gauge reading => reading.isFinite
  | counter _ => true

def toText : Value → String
  | gauge reading => reading.toText
  | counter delta => String.ofList (Decimal.writeInt64 delta)

/-- The form a value takes in an update path: six places for a gauge, the integer for a counter. -/
def toPathSegment : Value → String
  | gauge reading => reading.toFixed 6
  | counter delta => String.ofList (Decimal.writeInt64 delta)

end Value

namespace Kind

/-- Reads a value's text: a finite decimal for a gauge, a 64-bit integer for a counter. -/
def readValue (kind : Kind) (raw : String) : Except Invalid Value :=
  match kind with
  | .gauge =>
    match Binary64.ofText? raw with
    | some reading => if reading.isFinite then .ok (.gauge reading) else .error (.badValue kind raw)
    | none => .error (.badValue kind raw)
  | .counter =>
    match Decimal.readInt64? raw.toList with
    | some delta => .ok (.counter delta)
    | none => .error (.badValue kind raw)

def read (text : String) : Except Invalid Kind :=
  match ofText? text with
  | some kind => .ok kind
  | none => .error (.unsupportedKind text)

end Kind

namespace Key

def toText (key : Key) : String := key.kind.name ++ "/" ++ key.id

/-- Series are listed by id, in the order of its UTF-8 bytes, which is that of its code points, and
a gauge before a counter of the same id. -/
def precedes (a b : Key) : Prop := a.id < b.id ∨ a.id = b.id ∧ a.kind = .gauge ∧ b.kind = .counter

instance (a b : Key) : Decidable (a.precedes b) := inferInstanceAs (Decidable (_ ∨ _))

theorem not_precedes_self (a : Key) : ¬ a.precedes a := by
  rintro (h | ⟨_, h, h'⟩)
  · exact String.lt_irrefl _ h
  · rw [h] at h'; cases h'

theorem precedes_trans {a b c : Key} (first : a.precedes b) (second : b.precedes c) :
    a.precedes c := by
  rcases first with h | ⟨same, hk, hk'⟩ <;> rcases second with g | ⟨same', gk, gk'⟩
  · exact .inl (String.lt_trans h g)
  · exact .inl (same' ▸ h)
  · exact .inl (same ▸ g)
  · rw [hk'] at gk; cases gk

theorem precedes_trichotomy (a b : Key) : a.precedes b ∨ a = b ∨ b.precedes a := by
  by_cases h : a.id < b.id
  · exact .inl (.inl h)
  by_cases g : b.id < a.id
  · exact .inr (.inr (.inl g))
  have same : a.id = b.id := String.le_antisymm (String.not_lt.1 g) (String.not_lt.1 h)
  obtain ⟨i, k⟩ := a
  obtain ⟨j, l⟩ := b
  cases same
  cases k <;> cases l <;> simp [precedes]

instance : Ascending Key where
  lt := precedes
  decidable := inferInstanceAs (DecidableRel precedes)
  equality := inferInstance
  irrefl := not_precedes_self
  trans := precedes_trans
  connected := precedes_trichotomy

def ascending (keys : List Key) : List Key :=
  (keys.foldl (fun table key => table.put key ()) (Table.empty : Table Key Unit)).entries.map (·.1)

end Key

namespace Metric

def kind (m : Metric) : Kind := m.value.kind

def key (m : Metric) : Key := ⟨m.id, m.kind⟩

end Metric

namespace Invalid

def message : Invalid → String
  | emptyId => "metric id must not be empty"
  | unsupportedKind raw => "unsupported metric kind '" ++ raw ++ "'"
  | missingValue id kind => "metric '" ++ id ++ "' of kind " ++ kind.name ++ " carries no value"
  | badValue kind raw => "invalid " ++ kind.name ++ " value '" ++ raw ++ "'"

end Invalid
end Telemetry
