import Telemetry.Json.Record
import Telemetry.Proofs.Result

namespace Telemetry.Json

variable {α β σ : Type}

def Yields (read : Reader α) (P : α → Prop) : Prop :=
  ∀ ⦃bound : Nat⦄ ⦃input : Bytes⦄ ⦃value : α⦄ ⦃rest : Bytes⦄, read bound input = .ok (value, rest) →
    P value

theorem Yields.mono {read : Reader α} {P Q : α → Prop} (yields : Yields read P)
    (weaker : ∀ value, P value → Q value) :
    Yields read Q := by
  intro bound input value rest done
  exact weaker value (yields done)

theorem Yields.mapped {read : Reader α} {f : α → β} {P : β → Prop}
    (yields : Yields read fun value => P (f value)) :
    Yields (mapped f read) P := by
  intro bound input value rest done
  obtain ⟨⟨value, rest⟩, inner, made⟩ := map_eq_ok_iff.1 done
  cases made
  exact yields inner

theorem Yields.optional {read : Reader α} {P : α → Prop} (yields : Yields read P) :
    Yields (optional read) fun value => ∀ inner, value = some inner → P inner := by
  intro bound input value rest done
  unfold Json.optional at done
  split at done
  · obtain ⟨rest, -, absent⟩ := map_eq_ok_iff.1 done
    cases absent
    intro inner same
    cases same
  · have present : Yields (Json.mapped some read) fun value => ∀ inner, value = some inner →
        P inner := by
      refine Yields.mapped (yields.mono ?_)
      rintro value holds inner ⟨⟩
      exact holds
    exact present done

theorem yields_onFirst {read : UInt8 → Bytes → Except Fault (α × Bytes)} {P : α → Prop}
    (each : ∀ b input value rest, read b input = .ok (value, rest) → P value) :
    Yields (onFirst read) P := by
  intro bound input value rest done
  unfold onFirst at done
  split at done
  · cases done
  · exact each _ _ _ _ done

theorem yields_binary64 : Yields binary64 fun value => value.isFinite := by
  apply yields_onFirst
  intro b input value rest done
  by_cases begins : beginsNumber b = true
  · rw [if_pos begins] at done
    obtain ⟨⟨n, after⟩, -, done⟩ := bind_eq_ok_iff.1 done
    cases fits : n.toBinary64? with
    | none => simp [fits] at done
    | some rounded =>
      simp only [fits, pure_eq_ok, Except.ok.injEq, Prod.mk.injEq] at done
      obtain ⟨rfl, -⟩ := done
      simp only [Number.toBinary64?, Option.ite_none_right_eq_some, Option.some.injEq] at fits
      exact fits.2 ▸ fits.1
  · rw [if_neg begins] at done
    cases done

/-! ### Lists -/

theorem yields_elements {read : Reader α} {P : α → Prop} (yields : Yields read P) (first : Bool)
    {done : List α} (before : ∀ value ∈ done, P value) :
    Yields (elements read first done) fun values => ∀ value ∈ values, P value := by
  intro bound input values rest read
  induction bound generalizing first done input with
  | zero => cases read
  | succ bound ih =>
    unfold elements at read
    obtain ⟨next, -, read⟩ := bind_eq_ok_iff.1 read
    cases next with
    | done after =>
      cases read
      intro value member
      exact before value (List.mem_reverse.1 member)
    | part part =>
      obtain ⟨⟨value, after⟩, here, read⟩ := bind_eq_ok_iff.1 read
      refine ih false ?_ read
      simpa using ⟨yields here, before⟩

theorem Yields.list {read : Reader α} {P : α → Prop} (yields : Yields read P) :
    Yields (list read) fun values => ∀ value ∈ values, P value := by
  intro bound input values rest done
  unfold Json.list at done
  refine yields_onFirst (P := fun values => ∀ value ∈ values, P value) ?_ done
  intro b input values rest done
  split at done
  · exact yields_elements yields true (by simp) done
  · cases done

/-! ### Records -/

section Records

variable {fields : List (Field σ)} {P : σ → Prop}

def Field.Keeps (field : Field σ) (P : σ → Prop) : Prop :=
  Yields field.read fun enter => ∀ record, P record → P (enter record)

theorem Field.keeps_of_yields {name : String} {taken : σ → Bool} {read : Reader α}
    {enter : α → σ → σ}
    (yields : Yields read fun value => ∀ record, P record → P (enter value record)) :
    Field.Keeps ⟨name, taken, mapped enter read⟩ P :=
  Yields.mapped (f := enter) yields

theorem yields_members (keep : ∀ field ∈ fields, field.Keeps P) (first : Bool) {record : σ}
    (holds : P record) :
    Yields (members fields first record) P := by
  intro bound input filled rest done
  induction bound generalizing first record input with
  | zero => cases done
  | succ bound ih =>
    unfold members at done
    obtain ⟨next, -, done⟩ := bind_eq_ok_iff.1 done
    cases next with
    | done after =>
      cases done
      exact holds
    | part part =>
      obtain ⟨⟨name, after⟩, -, done⟩ := bind_eq_ok_iff.1 done
      cases found : fields.find? (·.name == name) with
      | none =>
        simp only [found] at done
        obtain ⟨value, -, done⟩ := bind_eq_ok_iff.1 done
        obtain ⟨skipped, -, done⟩ := bind_eq_ok_iff.1 done
        exact ih false holds done
      | some field =>
        simp only [found] at done
        by_cases taken : field.taken record = true
        · simp [taken, throw_eq_error, error_bind] at done
        · simp only [taken] at done
          obtain ⟨value, -, done⟩ := bind_eq_ok_iff.1 done
          obtain ⟨⟨enter, after⟩, here, done⟩ := bind_eq_ok_iff.1 done
          exact ih false (keep field (List.mem_of_find?_eq_some found) here record holds) done

theorem holds_of_positional (keep : ∀ field ∈ fields, field.Keeps P) {bound : Nat} {first : Bool}
    {record filled : σ} (holds : P record) {input rest : Bytes}
    (done : positional bound first record fields input = .ok (filled, rest)) :
    P filled := by
  induction fields generalizing first record input with
  | nil =>
    unfold positional at done
    split at done
    · cases done
    · cases done
      exact holds
    · cases done
  | cons field fields ih =>
    simp only [List.forall_mem_cons] at keep
    unfold positional at done
    obtain ⟨next, -, done⟩ := bind_eq_ok_iff.1 done
    cases next with
    | done after =>
      cases done
      exact holds
    | part part =>
      obtain ⟨⟨enter, after⟩, here, done⟩ := bind_eq_ok_iff.1 done
      exact ih keep.2 (keep.1 here record holds) done

theorem yields_record {empty : σ} {finish : σ → Except Fault α} {Q : α → Prop}
    (keep : ∀ field ∈ fields, field.Keeps P) (start : P empty)
    (finished : ∀ {record value}, P record → finish record = .ok value → Q value) :
    Yields (record fields empty finish) Q := by
  have judged : ∀ {filled : σ} {after rest : Bytes} {value : α}, P filled →
      (do return (← finish filled, after)) = Except.ok (value, rest) → Q value := by
    intro filled after rest value holds done
    obtain ⟨value, accepted, made⟩ := bind_eq_ok_iff.1 done
    cases made
    exact finished holds accepted
  intro bound input value rest done
  unfold record at done
  refine yields_onFirst ?_ done
  intro b input value rest done
  split at done
  · obtain ⟨⟨filled, after⟩, here, done⟩ := bind_eq_ok_iff.1 done
    exact judged (yields_members keep true start here) done
  split at done
  · obtain ⟨⟨filled, after⟩, here, done⟩ := bind_eq_ok_iff.1 done
    exact judged (holds_of_positional keep start here) done
  · cases done

end Records

theorem Yields.document {read : Reader α} {P : α → Prop} (yields : Yields read P) {input : Bytes}
    {value : α} (done : document read input = .ok value) : P value := by
  obtain ⟨⟨value, rest⟩, here, done⟩ := bind_eq_ok_iff.1 done
  dsimp only at done
  split at done
  · cases done
    exact yields here
  · cases done

end Telemetry.Json
