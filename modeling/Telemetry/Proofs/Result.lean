namespace Telemetry

variable {ε ε' α β : Type}

@[simp] theorem ok_bind (a : α) (f : α → Except ε β) : (Except.ok a >>= f) = f a := rfl

@[simp] theorem error_bind (e : ε) (f : α → Except ε β) : (Except.error e >>= f) = .error e := rfl

@[simp] theorem pure_eq_ok (a : α) : (pure a : Except ε α) = .ok a := rfl

@[simp] theorem throw_eq_error (e : ε) : (throw e : Except ε α) = .error e := rfl

@[simp] theorem map_ok (f : α → β) (a : α) : (Except.ok a : Except ε α).map f = .ok (f a) := rfl

@[simp] theorem map_error (f : α → β) (e : ε) : (Except.error e : Except ε α).map f = .error e :=
  rfl

@[simp] theorem mapError_ok (f : ε → ε') (a : α) : (Except.ok a : Except ε α).mapError f = .ok a :=
  rfl

@[simp] theorem mapError_error (f : ε → ε') (e : ε) :
    (Except.error e : Except ε α).mapError f = .error (f e) := rfl

theorem bind_eq_ok_iff {x : Except ε α} {f : α → Except ε β} {b : β} :
    (x >>= f) = .ok b ↔ ∃ a, x = .ok a ∧ f a = .ok b := by
  cases x with
  | error e => simp [error_bind]
  | ok a => simp [ok_bind]

theorem map_eq_ok_iff {x : Except ε α} {f : α → β} {b : β} :
    x.map f = .ok b ↔ ∃ a, x = .ok a ∧ f a = b := by
  cases x <;> simp

theorem mapError_eq_ok_iff {x : Except ε α} {f : ε → ε'} {a : α} :
    x.mapError f = .ok a ↔ x = .ok a := by
  cases x <;> simp

theorem toOption_eq_some_iff {x : Except ε α} {a : α} : x.toOption = some a ↔ x = .ok a := by
  cases x <;> simp [Except.toOption]

theorem exists_of_mem_mapM {f : α → Except ε β} {inputs : List α} {outputs : List β}
    (done : inputs.mapM f = .ok outputs) {output : β} (member : output ∈ outputs) :
    ∃ input ∈ inputs, f input = .ok output := by
  induction inputs generalizing outputs with
  | nil =>
    cases done
    cases member
  | cons first rest ih =>
    rw [List.mapM_cons] at done
    obtain ⟨made, here, later⟩ := bind_eq_ok_iff.1 done
    obtain ⟨others, there, all⟩ := bind_eq_ok_iff.1 later
    cases all
    rcases List.mem_cons.1 member with rfl | inRest
    · exact ⟨first, List.mem_cons_self .., here⟩
    · obtain ⟨input, inside, found⟩ := ih there inRest
      exact ⟨input, List.mem_cons_of_mem _ inside, found⟩

/-- A list of checks that answer what they were given, or else one fault. -/
theorem mapM_check {p : α → Prop} [DecidablePred p] (fault : ε) (inputs : List α) :
    inputs.mapM (fun input => if p input then Except.ok input else Except.error fault) =
      if ∀ input ∈ inputs, p input then Except.ok inputs else Except.error fault := by
  induction inputs with
  | nil => simp
  | cons first rest ih =>
    rw [List.mapM_cons, ih]
    by_cases here : p first
    · by_cases later : ∀ input ∈ rest, p input
      · simp [here, if_pos later]
      · simp [here, if_neg later]
    · simp [here]

end Telemetry
