/-!
Bounded retries. An operation is tried once and then again after each delay of a schedule, for as
long as it fails in a way that may pass. Delays are in milliseconds.
-/
namespace Telemetry.Retry

abbrev Schedule := List Nat

def standard : Schedule := [1000, 2000, 3000]

def maxAttempts (schedule : Schedule) : Nat := schedule.length + 1

/-- The failure of a retried operation: the schedule ran out, or the error was of a lasting kind. -/
inductive Failure (ε : Type) where
  | exhausted (attempts : Nat) (last : ε)
  | permanent (error : ε)
  deriving DecidableEq, Repr

namespace Failure

variable {ε : Type}

def inner : Failure ε → ε
  | exhausted _ last => last
  | permanent error => error

def message (text : ε → String) : Failure ε → String
  | exhausted attempts last => "gave up after " ++ toString attempts ++ " attempts: " ++ text last
  | permanent error => text error

end Failure

inductive Next (ε α : Type) where
  | finished (result : Except (Failure ε) α)
  | again (delay : Nat) (rest : Schedule)
  deriving Repr

/-- Decides on the result of the attempt with this number, `delays` being what is left of the
schedule. -/
def next {ε α : Type} (isTransient : ε → Bool) (attempt : Nat) (delays : Schedule) :
    Except ε α → Next ε α
  | .ok value => .finished (.ok value)
  | .error error =>
    if isTransient error then
      match delays with
      | [] => .finished (.error (.exhausted attempt error))
      | delay :: rest => .again delay rest
    else .finished (.error (.permanent error))

/-- A retried operation that has ended: its result, the number of attempts, the delays between them,
and the state after it. -/
structure Outcome (σ ε α : Type) where
  result : Except (Failure ε) α
  attempts : Nat
  slept : List Nat
  state : σ
  deriving Repr

abbrev Sleeper (σ : Type) := Nat → σ → σ

def runFromWith {σ ε α : Type} (sleep : Sleeper σ) (isTransient : ε → Bool)
    (operation : Nat → σ → Except ε α × σ) (attempt : Nat) (delays : Schedule) (state : σ) :
    Outcome σ ε α :=
  let (result, state) := operation attempt state
  match result, delays with
  | .ok value, _ => ⟨.ok value, attempt, [], state⟩
  | .error error, [] =>
    ⟨.error (if isTransient error then .exhausted attempt error else .permanent error), attempt, [],
      state⟩
  | .error error, delay :: rest =>
    if isTransient error then
      let later := runFromWith sleep isTransient operation (attempt + 1) rest (sleep delay state)
      { later with slept := delay :: later.slept }
    else ⟨.error (.permanent error), attempt, [], state⟩

/-- Runs an operation from an attempt on, with nothing else going on in the delays. -/
def runFrom {σ ε α : Type} (isTransient : ε → Bool) (operation : Nat → σ → Except ε α × σ)
    (attempt : Nat) (delays : Schedule) (state : σ) : Outcome σ ε α :=
  runFromWith (fun _ state => state) isTransient operation attempt delays state

/-- Runs an operation, whose attempts are numbered from one, under a schedule. -/
def runWith {σ ε α : Type} (sleep : Sleeper σ) (schedule : Schedule) (isTransient : ε → Bool)
    (operation : Nat → σ → Except ε α × σ) (state : σ) : Outcome σ ε α :=
  runFromWith sleep isTransient operation 1 schedule state

def run {σ ε α : Type} (schedule : Schedule) (isTransient : ε → Bool)
    (operation : Nat → σ → Except ε α × σ) (state : σ) : Outcome σ ε α :=
  runFrom isTransient operation 1 schedule state

/-- A run does at each attempt what `next` decides. -/
theorem runFromWith_eq_next {σ ε α : Type} (sleep : Sleeper σ) (isTransient : ε → Bool)
    (operation : Nat → σ → Except ε α × σ) (attempt : Nat) (delays : Schedule) (state : σ) :
    runFromWith sleep isTransient operation attempt delays state =
      match next isTransient attempt delays (operation attempt state).1 with
      | .finished result => ⟨result, attempt, [], (operation attempt state).2⟩
      | .again delay rest =>
        let later := runFromWith sleep isTransient operation (attempt + 1) rest
          (sleep delay (operation attempt state).2)
        { later with slept := delay :: later.slept } := by
  rw [runFromWith.eq_def]
  rcases operation attempt state with ⟨value | error, after⟩
  · cases delays <;> cases h : isTransient value <;> simp only [next, h] <;> rfl
  · rfl

theorem runFrom_eq_next {σ ε α : Type} (isTransient : ε → Bool)
    (operation : Nat → σ → Except ε α × σ) (attempt : Nat) (delays : Schedule) (state : σ) :
    runFrom isTransient operation attempt delays state =
      match next isTransient attempt delays (operation attempt state).1 with
      | .finished result => ⟨result, attempt, [], (operation attempt state).2⟩
      | .again delay rest =>
        let later := runFrom isTransient operation (attempt + 1) rest (operation attempt state).2
        { later with slept := delay :: later.slept } :=
  runFromWith_eq_next (fun _ state => state) isTransient operation attempt delays state

end Telemetry.Retry
