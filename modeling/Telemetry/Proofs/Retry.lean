import Telemetry.Proofs.Result
import Telemetry.Retry

/-!
Retried operations. Main statements: a run makes its attempts one after the other, with the delays
of its schedule between them, up to the first that does not fail in a way that may pass; and if a
lost attempt leaves the state alone and every other one comes to the same, a run ends with the first
attempt that is not lost, or with its schedule.
-/
namespace Telemetry.Retry

variable {σ ε α : Type} {sleep : Sleeper σ} {isTransient : ε → Bool}
  {operation : Nat → σ → Except ε α × σ} {state after : σ} {result : Except ε α} {error : ε}
  {lost : Nat → Prop}

theorem delays_of_next_eq_again {attempt delay : Nat} {delays rest : Schedule}
    (again : next isTransient attempt delays result = .again delay rest) :
    delays = delay :: rest := by
  cases result with
  | ok value => cases again
  | error error =>
    cases transient : isTransient error with
    | false =>
      simp only [next, transient] at again
      cases again
    | true =>
      simp only [next, transient, if_true] at again
      cases delays with
      | nil => cases again
      | cons head tail =>
        cases again
        rfl

theorem runFromWith_of_lasting {first : Nat} (done : operation first state = (result, after))
    (lasting : ∀ e, result = .error e → isTransient e = false) (delays : Schedule) :
    runFromWith sleep isTransient operation first delays state =
      ⟨result.mapError .permanent, first, [], after⟩ := by
  rw [runFromWith_eq_next, done]
  cases result with
  | ok value => rfl
  | error e =>
    simp only [next, lasting e rfl]
    rfl

theorem runFrom_of_lasting {first : Nat} (done : operation first state = (result, after))
    (lasting : ∀ e, result = .error e → isTransient e = false) (delays : Schedule) :
    runFrom isTransient operation first delays state =
      ⟨result.mapError .permanent, first, [], after⟩ :=
  runFromWith_of_lasting done lasting delays

theorem runFromWith_of_transient {first : Nat}
    (failed : operation first state = (.error error, after)) (transient : isTransient error = true)
    (delay : Nat) (rest : Schedule) :
    runFromWith sleep isTransient operation first (delay :: rest) state =
      let later := runFromWith sleep isTransient operation (first + 1) rest (sleep delay after)
      { later with slept := delay :: later.slept } := by
  rw [runFromWith_eq_next, failed]
  simp only [next, transient, if_true]

theorem runFrom_of_transient {first : Nat} (failed : operation first state = (.error error, after))
    (transient : isTransient error = true) (delay : Nat) (rest : Schedule) :
    runFrom isTransient operation first (delay :: rest) state =
      { runFrom isTransient operation (first + 1) rest after with
        slept := delay :: (runFrom isTransient operation (first + 1) rest after).slept } :=
  runFromWith_of_transient failed transient delay rest

/-! ### Courses -/

inductive Event where
  | attempt (number : Nat)
  | delay (length : Nat)
  deriving DecidableEq, Repr

/-- The events before an attempt that has been repeated so often: each delay follows the attempt
with its number. -/
def eventsBefore (first : Nat) (delays : Schedule) (repeats : Nat) : List Event :=
  ((delays.take repeats).zipIdx first).flatMap fun (delay, number) =>
    [.attempt number, .delay delay]

def Event.act (sleep : Sleeper σ) (operation : Nat → σ → Except ε α × σ) (state : σ) : Event → σ
  | attempt number => (operation number state).2
  | delay length => sleep length state

def resultAt (sleep : Sleeper σ) (operation : Nat → σ → Except ε α × σ) (first : Nat)
    (delays : Schedule) (state : σ) (repeats : Nat) : Except ε α :=
  (operation (first + repeats)
    ((eventsBefore first delays repeats).foldl (Event.act sleep operation) state)).1

def conclusion (isTransient : ε → Bool) (attempts : Nat) : Except ε α → Except (Failure ε) α
  | .ok value => .ok value
  | .error error =>
    .error (if isTransient error then .exhausted attempts error else .permanent error)

/-- The course of a run that repeats its attempt so often: every attempt but the last fails in a way
that may pass, and the last does not, unless all delays have passed. -/
structure Course (sleep : Sleeper σ) (isTransient : ε → Bool) (operation : Nat → σ → Except ε α × σ)
    (first : Nat) (delays : Schedule) (state : σ) (repeats : Nat) (outcome : Outcome σ ε α) :
    Prop where
  inTime : repeats ≤ delays.length
  passed : ∀ k < repeats, ∃ error, resultAt sleep operation first delays state k = .error error ∧
    isTransient error = true
  stopped : repeats < delays.length → ∀ error,
    resultAt sleep operation first delays state repeats = .error error → isTransient error = false
  result : outcome.result =
    conclusion isTransient (first + delays.length)
      (resultAt sleep operation first delays state repeats)
  attempts : outcome.attempts = first + repeats
  slept : outcome.slept = delays.take repeats
  state :
    outcome.state = (eventsBefore first delays repeats ++ [Event.attempt (first + repeats)]).foldl
      (Event.act sleep operation) state

theorem eventsBefore_cons (first delay : Nat) (rest : Schedule) (repeats : Nat) :
    eventsBefore first (delay :: rest) (repeats + 1) =
      .attempt first :: .delay delay :: eventsBefore (first + 1) rest repeats := rfl

theorem resultAt_zero (first : Nat) (delays : Schedule) (state : σ) :
    resultAt sleep operation first delays state 0 = (operation first state).1 := rfl

theorem resultAt_cons (first delay : Nat) (rest : Schedule) (state : σ) (repeats : Nat) :
    resultAt sleep operation first (delay :: rest) state (repeats + 1) =
      resultAt sleep operation (first + 1) rest (sleep delay (operation first state).2)
        repeats := by
  have number : first + (repeats + 1) = first + 1 + repeats := by omega
  rw [resultAt, resultAt, eventsBefore_cons, number]
  rfl

theorem conclusion_of_lasting (lasting : ∀ e, result = .error e → isTransient e = false)
    (attempts : Nat) :
    conclusion isTransient attempts result = result.mapError .permanent := by
  cases result with
  | ok value => rfl
  | error e => simp [conclusion, lasting e rfl]

theorem Course.of_lasting {first : Nat} (done : operation first state = (result, after))
    (lasting : ∀ e, result = .error e → isTransient e = false) (delays : Schedule) :
    Course sleep isTransient operation first delays state 0
      ⟨result.mapError .permanent, first, [], after⟩ where
  inTime := Nat.zero_le _
  passed := nofun
  stopped := by
    intro _ e failed
    rw [resultAt_zero, done] at failed
    exact lasting e failed
  result := by rw [resultAt_zero, done, conclusion_of_lasting lasting]
  attempts := rfl
  slept := rfl
  state := (congrArg Prod.snd done).symm

theorem Course.of_exhausted {first : Nat} (failed : operation first state = (.error error, after))
    (transient : isTransient error = true) :
    Course sleep isTransient operation first [] state 0 ⟨.error (.exhausted first error), first, [],
      after⟩ where
  inTime := Nat.le_refl _
  passed := nofun
  stopped := nofun
  result := by simp [resultAt_zero, failed, conclusion, transient]
  attempts := rfl
  slept := rfl
  state := (congrArg Prod.snd failed).symm

theorem Course.cons {first delay repeats : Nat} {rest : Schedule} {outcome : Outcome σ ε α}
    (failed : operation first state = (.error error, after)) (transient : isTransient error = true)
    (later : Course sleep isTransient operation (first + 1) rest (sleep delay after) repeats
      outcome) :
    Course sleep isTransient operation first (delay :: rest) state (repeats + 1)
      { outcome with slept := delay :: outcome.slept } := by
  have next : ∀ k, resultAt sleep operation first (delay :: rest) state (k + 1) =
      resultAt sleep operation (first + 1) rest (sleep delay after) k := by
    intro k
    rw [resultAt_cons, failed]
  have number : ∀ k, first + (k + 1) = first + 1 + k := by omega
  constructor
  · exact Nat.succ_le_succ later.inTime
  · rintro (_ | k) earlier
    · exact ⟨error, congrArg Prod.fst failed, transient⟩
    · rw [next]
      exact later.passed k (Nat.lt_of_succ_lt_succ earlier)
  · intro more
    rw [next]
    exact later.stopped (Nat.lt_of_succ_lt_succ more)
  · rw [next, List.length_cons, number]
    exact later.result
  · rw [number]
    exact later.attempts
  · exact congrArg (delay :: ·) later.slept
  · rw [eventsBefore_cons, number repeats, List.cons_append, List.cons_append, List.foldl_cons,
      List.foldl_cons, Event.act, failed]
    exact later.state

theorem lasting_or_transient (isTransient : ε → Bool) (result : Except ε α) :
    (∀ e, result = .error e → isTransient e = false) ∨ ∃ e, result = .error e ∧
      isTransient e = true := by
  cases result with
  | ok value => exact .inl nofun
  | error error =>
    cases transient : isTransient error with
    | true => exact .inr ⟨error, rfl, transient⟩
    | false =>
      refine .inl ?_
      rintro e ⟨⟩
      exact transient

theorem runFromWith_course_of_lasting {first : Nat} (made : operation first state = (result, after))
    (lasting : ∀ e, result = .error e → isTransient e = false) (delays : Schedule) :
    Course sleep isTransient operation first delays state 0
      (runFromWith sleep isTransient operation first delays state) := by
  rw [runFromWith_of_lasting made lasting]
  exact .of_lasting made lasting delays

/-- A run from an attempt on takes its course. -/
theorem runFromWith_course (sleep : Sleeper σ) (isTransient : ε → Bool)
    (operation : Nat → σ → Except ε α × σ) (first : Nat) (delays : Schedule) (state : σ) :
    ∃ repeats, Course sleep isTransient operation first delays state repeats
      (runFromWith sleep isTransient operation first delays state) := by
  induction delays generalizing first state with
  | nil =>
    rcases made : operation first state with ⟨result, after⟩
    rcases lasting_or_transient isTransient result with lasting | ⟨error, rfl, transient⟩
    · exact ⟨0, runFromWith_course_of_lasting made lasting []⟩
    · refine ⟨0, ?_⟩
      rw [runFromWith_eq_next, made]
      simp only [next, transient, if_true]
      exact .of_exhausted made transient
  | cons delay rest ih =>
    rcases made : operation first state with ⟨result, after⟩
    rcases lasting_or_transient isTransient result with lasting | ⟨error, rfl, transient⟩
    · exact ⟨0, runFromWith_course_of_lasting made lasting (delay :: rest)⟩
    · obtain ⟨repeats, later⟩ := ih (first + 1) (sleep delay after)
      rw [runFromWith_of_transient made transient]
      exact ⟨repeats + 1, .cons made transient later⟩

/-- A run takes its course whatever its attempts come to, and what it fails with is the error of its
last attempt. -/
theorem runs_take_course (sleep : Sleeper σ) (schedule : Schedule) (isTransient : ε → Bool)
    (operation : Nat → σ → Except ε α × σ) (state : σ) :
    let outcome := runWith sleep schedule isTransient operation state
    ∃ repeats, Course sleep isTransient operation 1 schedule state repeats outcome ∧
      ∀ failure, outcome.result = .error failure →
        resultAt sleep operation 1 schedule state repeats = .error failure.inner := by
  intro outcome
  obtain ⟨repeats, course⟩ := runFromWith_course sleep isTransient operation 1 schedule state
  refine ⟨repeats, course, ?_⟩
  intro failure failed
  have concluded := course.result.symm.trans failed
  cases made : resultAt sleep operation 1 schedule state repeats with
  | ok value =>
    rw [made] at concluded
    cases concluded
  | error error =>
    rw [made, conclusion] at concluded
    split at concluded <;> cases concluded <;> rfl

/-- Two attempts that time out and a third that does not, with a log that is kept of what happens.
-/
example :
    runWith (fun length log => log ++ [Event.delay length]) standard (fun (_ : Unit) => true)
      (fun number log =>
        (if number < 3 then .error () else .ok "done", log ++ [Event.attempt number])) [] =
    ⟨.ok "done", 3, [1000, 2000],
      [.attempt 1, .delay 1000, .attempt 2, .delay 2000, .attempt 3]⟩ := rfl

/-! ### One outcome of all attempts -/

theorem run_of_ok {value : α} (done : operation 1 state = (.ok value, after))
    (schedule : Schedule) :
    run schedule isTransient operation state = ⟨.ok value, 1, [], after⟩ :=
  runFrom_of_lasting done nofun schedule

theorem run_of_lasting (failed : operation 1 state = (.error error, after))
    (lasting : isTransient error = false) (schedule : Schedule) :
    run schedule isTransient operation state = ⟨.error (.permanent error), 1, [], after⟩ := by
  refine runFrom_of_lasting failed ?_ schedule
  rintro e ⟨⟩
  exact lasting

/-- How a run ends whose attempts, numbered from `first` on, are lost or come to the same. -/
inductive Ends (lost : Nat → Prop) (result : Except ε α) (after : σ) (error : ε) (state : σ)
    (first : Nat) (delays : Schedule) : Outcome σ ε α → Prop
  | came {n : Nat} (inTime : n ≤ delays.length) (before : ∀ k < n, lost (first + k))
      (kept : ¬ lost (first + n)) :
      Ends lost result after error state first delays
        ⟨result.mapError .permanent, first + n, delays.take n, after⟩
  | ranOut (all : ∀ k ≤ delays.length, lost (first + k)) :
      Ends lost result after error state first delays
        ⟨.error (.exhausted (first + delays.length) error), first + delays.length, delays, state⟩

theorem Ends.atOnce {first : Nat} (kept : ¬ lost first) (delays : Schedule) :
    Ends lost result after error state first delays
      ⟨result.mapError .permanent, first, [], after⟩ :=
  @Ends.came _ _ _ lost result after error state first delays 0 (Nat.zero_le _) nofun kept

theorem Ends.cons {first delay : Nat} {rest : Schedule} (here : lost first)
    {outcome : Outcome σ ε α}
    (later : Ends lost result after error state (first + 1) rest outcome) :
    Ends lost result after error state first (delay :: rest)
      { outcome with slept := delay :: outcome.slept } := by
  have shift : ∀ k, first + 1 + k = first + (k + 1) := by omega
  cases later with
  | @came n inTime before kept =>
    simp only [shift] at before kept ⊢
    refine .came (Nat.succ_le_succ inTime) ?_ kept
    rintro (_ | k) earlier
    · exact here
    · exact before k (Nat.lt_of_succ_lt_succ earlier)
  | ranOut all =>
    simp only [shift] at all ⊢
    refine .ranOut ?_
    rintro (_ | k) inTime
    · exact here
    · exact all k (Nat.le_of_succ_le_succ inTime)

theorem runFrom_ends (transient : isTransient error = true)
    (lasting : ∀ e, result = .error e → isTransient e = false)
    (loses : ∀ n, lost n → operation n state = (.error error, state))
    (keeps : ∀ n, ¬ lost n → operation n state = (result, after)) (first : Nat)
    (delays : Schedule) :
    Ends lost result after error state first delays
      (runFrom isTransient operation first delays state) := by
  induction delays generalizing first with
  | nil =>
    by_cases here : lost first
    · rw [runFrom_eq_next, loses first here]
      simp only [next, transient, if_true]
      refine .ranOut ?_
      intro k none
      rwa [Nat.le_zero.1 none]
    · rw [runFrom_of_lasting (keeps first here) lasting]
      exact .atOnce here []
  | cons delay rest ih =>
    by_cases here : lost first
    · rw [runFrom_of_transient (loses first here) transient]
      exact (ih (first + 1)).cons here
    · rw [runFrom_of_lasting (keeps first here) lasting]
      exact .atOnce here _

end Telemetry.Retry
