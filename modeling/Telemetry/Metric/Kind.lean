namespace Telemetry

inductive Kind where
  | gauge
  | counter
  deriving DecidableEq, Repr

namespace Kind

def name : Kind → String
  | gauge => "gauge"
  | counter => "counter"

def ofName? (text : String) : Option Kind :=
  if text = "gauge" then some .gauge else if text = "counter" then some .counter else none

/-- The kind that a text names in any letter case. Only ASCII letters can change into the letters of
either name, so ASCII lowercasing decides. -/
def ofText? (text : String) : Option Kind := ofName? (String.ofList (text.toList.map Char.toLower))

theorem ofName?_eq_some {text : String} {kind : Kind} :
    ofName? text = some kind ↔ text = kind.name := by
  unfold ofName?
  constructor
  · intro h
    split at h
    · cases h; assumption
    split at h
    · cases h; assumption
    · cases h
  · rintro rfl
    cases kind <;> decide

@[simp] theorem ofName?_name (kind : Kind) : ofName? kind.name = some kind := ofName?_eq_some.2 rfl

@[simp] theorem ofText?_name (kind : Kind) :
    ofText? kind.name = some kind := by cases kind <;> decide

theorem name_injective {a b : Kind} (same : a.name = b.name) : a = b := by
  simpa using congrArg ofName? same

end Kind
end Telemetry
