import Telemetry.Store.Storage

/-!
Sequences of operations on a store. Main statements: a batch that is applied one by one fails
exactly where a first metric fails in its turn, and two systems that answer alike step by step, in
related states, answer alike over every run.
-/
namespace Telemetry

inductive Write where
  | update (m : Metric)
  | batch (ms : List Metric)
  deriving DecidableEq, Repr

def Write.metrics : Write → List Metric
  | .update m => [m]
  | .batch ms => ms

inductive Operation where
  | write (write : Write)
  | get (key : Key)
  | all

inductive Answer where
  | written (result : Except StoreFault Unit)
  | found (result : Except StoreFault Metric)
  | listed (result : Except StoreFault Contents)

namespace Storage

variable {σ : Type}

def write (storage : Storage σ) : Write → σ → Except StoreFault Unit × σ
  | .update m, state => storage.update m state
  | .batch ms, state => storage.updateBatch ms state

def perform (storage : Storage σ) : Operation → σ → Answer × σ
  | .write write, state => ((storage.write write state).map .written id)
  | .get key, state => (.found (storage.get key state), state)
  | .all, state => (.listed (storage.all state), state)

end Storage

/-- Takes steps one after the other: what they answer, and the state at the end. -/
def runAll {ι σ α : Type} (step : ι → σ → α × σ) : List ι → σ → List α × σ
  | [], state => ([], state)
  | input :: rest, state =>
    let (answer, next) := step input state
    let (answers, last) := runAll step rest next
    (answer :: answers, last)

section Runs

variable {ι σ τ α : Type} {f : ι → σ → α × σ} {g : ι → τ → α × τ} {R : σ → τ → Prop}

theorem runAll_append (front back : List ι) (state : σ) :
    runAll f (front ++ back) state =
      ((runAll f front state).1 ++ (runAll f back (runAll f front state).2).1,
        (runAll f back (runAll f front state).2).2) := by
  induction front generalizing state with
  | nil => rfl
  | cons input rest ih =>
    simp only [List.cons_append, runAll, ih]

theorem runAll_snoc (front : List ι) (last : ι) (state : σ) :
    runAll f (front ++ [last]) state =
      ((runAll f front state).1 ++ [(f last (runAll f front state).2).1],
        (f last (runAll f front state).2).2) := by
  rw [runAll_append]
  rfl

/-- What an input is answered within a run, and the state that it leaves. -/
theorem getElem?_runAll {inputs : List ι} {n : Nat} {input : ι} (here : inputs[n]? = some input)
    (state : σ) :
    (runAll f inputs state).1[n]? = some (f input (runAll f (inputs.take n) state).2).1 ∧
      (runAll f (inputs.take (n + 1)) state).2 =
        (f input (runAll f (inputs.take n) state).2).2 := by
  induction inputs generalizing n state with
  | nil => cases here
  | cons first rest ih =>
    cases n with
    | zero =>
      cases here
      exact ⟨rfl, rfl⟩
    | succ n => exact ih here (f first state).2

/-- Systems that answer alike and stay related at every step do so over every run. -/
theorem runAll_related
    (step : ∀ input state other, R state other →
      (f input state).1 = (g input other).1 ∧ R (f input state).2 (g input other).2)
    (inputs : List ι) {state : σ} {other : τ} (start : R state other) :
    (runAll f inputs state).1 = (runAll g inputs other).1 ∧
      R (runAll f inputs state).2 (runAll g inputs other).2 := by
  induction inputs generalizing state other with
  | nil => exact ⟨rfl, start⟩
  | cons input rest ih =>
    obtain ⟨sameAnswer, next⟩ := step input state other start
    obtain ⟨sameAnswers, last⟩ := ih next
    simp only [runAll]
    exact ⟨by rw [sameAnswer, sameAnswers], last⟩

theorem runAll_keeps {P : σ → Prop} {inputs : List ι}
    (step : ∀ input ∈ inputs, ∀ state, P state → P (f input state).2) {state : σ}
    (start : P state) : P (runAll f inputs state).2 := by
  induction inputs generalizing state with
  | nil => exact start
  | cons input rest ih =>
    simp only [List.forall_mem_cons] at step
    exact ih step.2 (step.1 state start)

theorem runAll_answers {P : σ → Prop} {Q : α → Prop} {inputs : List ι}
    (step : ∀ input ∈ inputs, ∀ state, P state → Q (f input state).1 ∧ P (f input state).2)
    {state : σ} (start : P state) : ∀ answer ∈ (runAll f inputs state).1, Q answer := by
  induction inputs generalizing state with
  | nil => nofun
  | cons input rest ih =>
    simp only [List.forall_mem_cons] at step
    have first := step.1 state start
    exact List.forall_mem_cons.2 ⟨first.1, ih step.2 first.2⟩

/-- Inputs that are answered apart and leave a related state can be left out of a run. -/
theorem runAll_filter {seen : ι → Bool} {shown : α → Bool} {inputs : List ι}
    (visible : ∀ input ∈ inputs, seen input = true → ∀ state other, R state other →
      (f input state).1 = (g input other).1 ∧ shown (f input state).1 = true ∧
      R (f input state).2 (g input other).2)
    (hidden : ∀ input ∈ inputs, seen input = false → ∀ state other, R state other →
      shown (f input state).1 = false ∧ R (f input state).2 other)
    {state : σ} {other : τ} (start : R state other) :
    (runAll f inputs state).1.filter shown = (runAll g (inputs.filter seen) other).1 ∧
      R (runAll f inputs state).2 (runAll g (inputs.filter seen) other).2 := by
  induction inputs generalizing state other with
  | nil => exact ⟨rfl, start⟩
  | cons input rest ih =>
    simp only [List.forall_mem_cons] at visible hidden
    cases counted : seen input with
    | true =>
      obtain ⟨sameAnswer, isShown, next⟩ := visible.1 counted state other start
      obtain ⟨sameAnswers, last⟩ := ih visible.2 hidden.2 next
      rw [List.filter_cons_of_pos counted]
      simp only [runAll]
      rw [List.filter_cons_of_pos isShown, sameAnswers, sameAnswer]
      exact ⟨rfl, last⟩
    | false =>
      obtain ⟨isHidden, next⟩ := hidden.1 counted state other start
      rw [List.filter_cons_of_neg (by simp [counted])]
      simp only [runAll]
      rw [List.filter_cons_of_neg (by simp [isHidden])]
      exact ih visible.2 hidden.2 next

end Runs

section Batches

variable {σ τ : Type} {f : Metric → σ → Except StoreFault Unit × σ}
  {g : Metric → τ → Except StoreFault Unit × τ} {R : σ → τ → Prop}

/-- One of the metrics fails in its turn, the first to do so, after those before it are applied. -/
def StopsAt (update : Metric → σ → Except StoreFault Unit × σ) (ms : List Metric) (state : σ)
    (fault : StoreFault) (after : σ) : Prop :=
  ∃ front m rest middle, ms = front ++ m :: rest ∧
    updateEach update front state = (.ok (), middle) ∧ update m middle = (.error fault, after)

theorem updateEach_cons_ok {m : Metric} {state next : σ} (applied : f m state = (.ok (), next))
    (rest : List Metric) : updateEach f (m :: rest) state = updateEach f rest next := by
  simp only [updateEach, applied]

theorem updateEach_cons_error {m : Metric} {state next : σ} {fault : StoreFault}
    (failed : f m state = (.error fault, next)) (rest : List Metric) :
    updateEach f (m :: rest) state = (.error fault, next) := by
  simp only [updateEach, failed]

theorem updateEach_singleton (m : Metric) (state : σ) : updateEach f [m] state = f m state := by
  rcases step : f m state with ⟨fault | ⟨⟩, next⟩
  · exact updateEach_cons_error step []
  · exact updateEach_cons_ok step []

theorem updateEach_error_iff {ms : List Metric} {state : σ} {fault : StoreFault} {after : σ} :
    updateEach f ms state = (.error fault, after) ↔ StopsAt f ms state fault after := by
  constructor
  · intro failed
    induction ms generalizing state with
    | nil => simp [updateEach] at failed
    | cons m rest ih =>
      rcases step : f m state with ⟨first | ⟨⟩, next⟩
      · rw [updateEach_cons_error step] at failed
        exact ⟨[], m, rest, state, rfl, rfl, step.trans failed⟩
      · rw [updateEach_cons_ok step] at failed
        obtain ⟨front, last, tail, middle, rfl, applied, stopped⟩ := ih failed
        exact ⟨m :: front, last, tail, middle, rfl, (updateEach_cons_ok step front).trans applied,
          stopped⟩
  · rintro ⟨front, m, rest, middle, rfl, applied, stopped⟩
    induction front generalizing state with
    | nil =>
      cases applied
      exact updateEach_cons_error stopped rest
    | cons first front ih =>
      rcases step : f first state with ⟨fault' | ⟨⟩, next⟩
      · rw [updateEach_cons_error step] at applied
        cases applied
      · rw [updateEach_cons_ok step] at applied
        exact (updateEach_cons_ok step _).trans (ih applied)

theorem updateEach_keeps {P : σ → Prop} {ms : List Metric}
    (step : ∀ m ∈ ms, ∀ state, P state → P (f m state).2) {state : σ} (start : P state) :
    P (updateEach f ms state).2 := by
  induction ms generalizing state with
  | nil => exact start
  | cons m rest ih =>
    simp only [List.forall_mem_cons] at step
    have next := step.1 state start
    rcases first : f m state with ⟨fault | ⟨⟩, after⟩ <;> rw [first] at next
    · rw [updateEach_cons_error first]
      exact next
    · rw [updateEach_cons_ok first]
      exact ih step.2 next

theorem updateEach_related {ms : List Metric}
    (step : ∀ m ∈ ms, ∀ state other, R state other →
      (f m state).1 = (g m other).1 ∧ R (f m state).2 (g m other).2)
    {state : σ} {other : τ} (start : R state other) :
    (updateEach f ms state).1 = (updateEach g ms other).1 ∧
      R (updateEach f ms state).2 (updateEach g ms other).2 := by
  induction ms generalizing state other with
  | nil => exact ⟨rfl, start⟩
  | cons m rest ih =>
    simp only [List.forall_mem_cons] at step
    obtain ⟨sameAnswer, next⟩ := step.1 state other start
    rcases first : f m state with ⟨fault | ⟨⟩, after⟩ <;>
      rcases second : g m other with ⟨fault' | ⟨⟩, after'⟩ <;>
      simp only [first, second] at sameAnswer next
    · rw [updateEach_cons_error first, updateEach_cons_error second]
      exact ⟨sameAnswer, next⟩
    · cases sameAnswer
    · cases sameAnswer
    · rw [updateEach_cons_ok first, updateEach_cons_ok second]
      exact ih step.2 next

end Batches
end Telemetry
