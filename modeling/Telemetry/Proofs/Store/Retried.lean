import Telemetry.Proofs.Store.Relational

/-!
Writes over a connection that may be lost. Main statement: whichever attempts lose it, and at
whatever point, a write that succeeds has applied all its metrics once and in order, and any other
leaves the tables as they were.
-/
namespace Telemetry.Database

open Memory (sum?)

/-- A table takes a metric as the store in memory does, without the sign of zero; but it cannot hold
a reading that is no number. -/
def enter (m : Metric) (tables : Memory) : Except StoreFault Unit × Memory :=
  if m.isNumber then Memory.update m.unsignZero tables else (.error .database, tables)

/-- How many upserts a transaction makes before it is ended by a commit, a rollback or an error. -/
def reached : List Metric → Memory → Nat
  | [], _ => 0
  | m :: rest, tables =>
    match upsert m tables with
    | .ok (true, next) => reached rest next + 1
    | .ok (false, _) => 1
    | .error _ => 0

/-- Whether an attempt is broken off: the connection is lost at a point that it reaches. -/
def IsBroken (lost : Option Nat) (ms : List Metric) (tables : Memory) : Prop :=
  ∃ n, lost = some n ∧ n ≤ reached ms tables

theorem upsertAll_of_broken {lost : Option Nat} {ms : List Metric} {tables : Memory}
    (broken : IsBroken lost ms tables) : upsertAll lost ms tables = .error .connection := by
  obtain ⟨n, rfl, inTime⟩ := broken
  induction ms generalizing n tables with
  | nil =>
    obtain rfl : n = 0 := Nat.le_zero.1 inTime
    rfl
  | cons m rest ih =>
    obtain _ | n := n
    · rfl
    rw [reached] at inTime
    rcases step : upsert m tables with error | ⟨_ | _, next⟩ <;> simp only [step] at inTime
    · cases inTime
    · obtain rfl : n = 0 := by omega
      simp only [upsertAll, step, Nat.zero_add, if_true]
    · simp only [upsertAll, step, Option.map_some, Nat.add_sub_cancel]
      exact ih n (Nat.le_of_succ_le_succ inTime)

theorem upsertAll_of_not_broken {lost : Option Nat} {ms : List Metric} {tables : Memory}
    (steady : ¬ IsBroken lost ms tables) : upsertAll lost ms tables = upsertAll none ms tables := by
  obtain _ | n := lost
  · rfl
  have late : reached ms tables < n := Nat.not_le.1 fun inTime => steady ⟨n, rfl, inTime⟩
  clear steady
  induction ms generalizing n tables with
  | nil =>
    obtain _ | n := n
    · cases late
    · rfl
  | cons m rest ih =>
    obtain _ | n := n
    · cases late
    rw [reached] at late
    rcases step : upsert m tables with error | ⟨_ | _, next⟩ <;> simp only [step] at late
    · simp only [upsertAll, step]
    · have notYet : n ≠ 0 := by omega
      simp [upsertAll, step, notYet]
    · simp only [upsertAll, step, Option.map_some, Option.map_none, Nat.add_sub_cancel]
      exact ih n (Nat.lt_of_succ_lt_succ late)

/-- What a transaction comes to over a connection that is not lost. The metrics before the one that
stops it have been entered by then. -/
inductive Comes (ms : List Metric) (tables : Memory) : Except Error (Option String × Memory) → Prop
  | applied {next : Memory} (once : updateEach enter ms tables = (.ok (), next)) :
      Comes ms tables (.ok (none, next))
  | overflow {front rest : List Metric} {m : Metric} {middle after : Memory} {delta : Int64}
      (split : ms = front ++ m :: rest) (before : updateEach enter front tables = (.ok (), middle))
      (counter : m.value = .counter delta)
      (unfit : sum? ((middle.counters.get? m.id).getD 0) delta = none) :
      Comes ms tables (.ok (some m.id, after))
  | notNumber {front rest : List Metric} {m : Metric} {middle : Memory}
      (split : ms = front ++ m :: rest) (before : updateEach enter front tables = (.ok (), middle))
      (nan : m.isNumber = false) :
      Comes ms tables (.error .other)

/-- A metric that is entered goes before the others. -/
theorem Comes.cons {m : Metric} {ms : List Metric} {tables next : Memory}
    (entered : enter m tables = (.ok (), next)) {result : Except Error (Option String × Memory)}
    (later : Comes ms next result) : Comes (m :: ms) tables result := by
  have further : ∀ front, updateEach enter (m :: front) tables = updateEach enter front next :=
    updateEach_cons_ok entered
  cases later with
  | applied once => exact .applied ((further _).trans once)
  | overflow split before counter unfit =>
    exact .overflow (congrArg (m :: ·) split) ((further _).trans before) counter unfit
  | notNumber split before nan =>
    exact .notNumber (congrArg (m :: ·) split) ((further _).trans before) nan

theorem unfit_of_update {m : Metric} (named : m.id ≠ "") {tables after : Memory}
    {fault : StoreFault} (failed : Memory.update m.unsignZero tables = (.error fault, after)) :
    ∃ delta, m.value = .counter delta ∧ sum? ((tables.counters.get? m.id).getD 0) delta = none := by
  obtain ⟨id, value⟩ := m
  have named' : (Metric.unsignZero ⟨id, value⟩).id ≠ "" := named
  cases value with
  | gauge reading =>
    rw [Memory.update_gauge named' rfl] at failed
    cases failed
  | counter delta =>
    rw [Memory.update_counter named' rfl] at failed
    refine ⟨delta, rfl, ?_⟩
    split at failed
    · cases failed
    · assumption

theorem upsertAll_comes {ms : List Metric} (named : ∀ m ∈ ms, m.id ≠ "") (tables : Memory) :
    Comes ms tables (upsertAll none ms tables) := by
  induction ms generalizing tables with
  | nil => exact .applied rfl
  | cons m rest ih =>
    rw [List.forall_mem_cons] at named
    cases number : m.isNumber with
    | false =>
      simp only [upsertAll, upsert_of_nan number]
      exact @Comes.notNumber _ _ [] rest m tables rfl rfl number
    | true =>
      have first := upsert_eq number named.1 tables
      have entered : enter m tables = Memory.update m.unsignZero tables := if_pos number
      rcases step : Memory.update m.unsignZero tables with ⟨fault | ⟨⟩, next⟩
      · rw [step] at first
        simp only [upsertAll, first, reduceCtorEq, if_false]
        obtain ⟨delta, counter, unfit⟩ := unfit_of_update named.1 step
        exact @Comes.overflow _ _ [] rest m tables next delta rfl rfl counter unfit
      · rw [step] at first entered
        simp only [upsertAll, first, Option.map_none]
        exact (ih named.2 next).cons entered

/-- A write of metrics gets as far as its attempt after `n` others: those were broken off and it is
not. -/
structure Attempts (schedule : Retry.Schedule) (lost : Nat → Option Nat) (ms : List Metric)
    (tables : Memory) (n : Nat) : Prop where
  named : ∀ m ∈ ms, m.id ≠ ""
  inTime : n ≤ schedule.length
  broken : ∀ k < n, IsBroken (lost (k + 1)) ms tables
  steady : ¬ IsBroken (lost (n + 1)) ms tables

/-- How a write ends when the connection may be lost in any attempt. No attempt is made if a metric
has no name, and none after the first that is not broken off. -/
inductive Retried (schedule : Retry.Schedule) (lost : Nat → Option Nat) (ms : List Metric)
    (tables : Memory) : Write → Prop
  | unnamed (empty : ∃ m ∈ ms, m.id = "") :
      Retried schedule lost ms tables ⟨.error (.invalid .emptyId), 0, [], ⟨some tables⟩⟩
  | applied {n : Nat} {next : Memory} (attempts : Attempts schedule lost ms tables n)
      (once : updateEach enter ms tables = (.ok (), next)) :
      Retried schedule lost ms tables ⟨.ok (), n + 1, schedule.take n, ⟨some next⟩⟩
  | overflow {n : Nat} {front rest : List Metric} {m : Metric} {middle : Memory} {delta : Int64}
      (attempts : Attempts schedule lost ms tables n) (split : ms = front ++ m :: rest)
      (before : updateEach enter front tables = (.ok (), middle))
      (counter : m.value = .counter delta)
      (unfit : sum? ((middle.counters.get? m.id).getD 0) delta = none) :
      Retried schedule lost ms tables ⟨.error (.overflow m.id), n + 1, schedule.take n,
        ⟨some tables⟩⟩
  | notNumber {n : Nat} {front rest : List Metric} {m : Metric} {middle : Memory}
      (attempts : Attempts schedule lost ms tables n) (split : ms = front ++ m :: rest)
      (before : updateEach enter front tables = (.ok (), middle)) (nan : m.isNumber = false) :
      Retried schedule lost ms tables ⟨.error .database, n + 1, schedule.take n, ⟨some tables⟩⟩
  | unavailable (named : ∀ m ∈ ms, m.id ≠ "")
      (broken : ∀ k ≤ schedule.length, IsBroken (lost (k + 1)) ms tables) :
      Retried schedule lost ms tables
        ⟨.error (.unavailable (schedule.length + 1)), schedule.length + 1, schedule, ⟨some tables⟩⟩

theorem transact_of_broken {lost : Option Nat} {ms : List Metric} {tables : Memory}
    (broken : IsBroken lost ms tables) :
    transact lost ms ⟨some tables⟩ = (.error .connection, ⟨some tables⟩) := by
  simp only [transact, upsertAll_of_broken broken]

theorem transact_of_not_broken {lost : Option Nat} {ms : List Metric} {tables : Memory}
    (steady : ¬ IsBroken lost ms tables) :
    transact lost ms ⟨some tables⟩ = transact none ms ⟨some tables⟩ := by
  simp only [transact, upsertAll_of_not_broken steady]

theorem upsertAll_lasting {ms : List Metric} (named : ∀ m ∈ ms, m.id ≠ "") (tables : Memory) :
    upsertAll none ms tables ≠ .error .connection := by
  intro failed
  have comes := upsertAll_comes named tables
  rw [failed] at comes
  cases comes

theorem transact_lasting {ms : List Metric} (named : ∀ m ∈ ms, m.id ≠ "") (tables : Memory) :
    (transact none ms ⟨some tables⟩).1 ≠ .error .connection := by
  have lasting := upsertAll_lasting named tables
  rcases result : upsertAll none ms tables with _ | ⟨_ | id, next⟩ <;>
    simp_all [transact]

/-- A write comes to what it comes to over a connection that is not lost, in the first attempt that
is not broken off; if there is none, it fails and leaves the tables alone. -/
theorem write_ends {ms : List Metric} (named : ∀ m ∈ ms, m.id ≠ "") (schedule : Retry.Schedule)
    (lost : Nat → Option Nat) (tables : Memory) :
    let steadily := write schedule (fun _ => none) ms ⟨some tables⟩
    (∃ n, Attempts schedule lost ms tables n ∧
      write schedule lost ms ⟨some tables⟩ =
        ⟨steadily.result, n + 1, schedule.take n, steadily.database⟩) ∨
    (∀ k ≤ schedule.length, IsBroken (lost (k + 1)) ms tables) ∧
      write schedule lost ms ⟨some tables⟩ =
        ⟨.error (.unavailable (schedule.length + 1)), schedule.length + 1, schedule,
          ⟨some tables⟩⟩ := by
  intro steadily
  obtain ⟨done, required⟩ := mapM_requireId_ok named
  have lasting : ∀ e, (transact none ms ⟨some tables⟩).1 = .error e → e.isTransient = false := by
    rintro (_ | _) failed
    · exact absurd failed (transact_lasting named tables)
    · rfl
  have once : Retry.run schedule Error.isTransient (fun _ => transact none ms) ⟨some tables⟩ =
      ⟨(transact none ms ⟨some tables⟩).1.mapError .permanent, 1, [],
        (transact none ms ⟨some tables⟩).2⟩ := Retry.runFrom_of_lasting rfl lasting schedule
  simp only [steadily, write, required, once]
  -- The attempts that are broken off leave the tables alone, and any other would be the steady one.
  have ends : Retry.Ends (fun attempt => IsBroken (lost attempt) ms tables)
      (transact none ms ⟨some tables⟩).1 (transact none ms ⟨some tables⟩).2 .connection
      ⟨some tables⟩ 1 schedule
      (Retry.run schedule Error.isTransient (fun attempt => transact (lost attempt) ms)
        ⟨some tables⟩) :=
    Retry.runFrom_ends rfl lasting (fun _ => transact_of_broken)
      (fun _ => transact_of_not_broken) 1 schedule
  generalize Retry.run schedule Error.isTransient _ _ = ended at ends
  cases ends with
  | @came n inTime before kept =>
    simp only [Nat.add_comm 1] at before kept ⊢
    exact .inl ⟨n, ⟨named, inTime, before, kept⟩, rfl⟩
  | ranOut all =>
    simp only [Nat.add_comm 1] at all ⊢
    exact .inr ⟨all, rfl⟩

/-- A write that succeeds has applied its metrics once, however often it was tried, and any other
has applied none of them. An update is the write of one metric, and a batch that of its metrics. -/
theorem write_retried (schedule : Retry.Schedule) (lost : Nat → Option Nat) (ms : List Metric)
    (tables : Memory) :
    Retried schedule lost ms tables (write schedule lost ms ⟨some tables⟩) := by
  by_cases empty : ∃ m ∈ ms, m.id = ""
  · simp only [write, mapM_requireId_error empty]
    exact .unnamed empty
  have named : ∀ m ∈ ms, m.id ≠ "" := fun m member unnamed => empty ⟨m, member, unnamed⟩
  rcases write_ends named schedule lost tables with ⟨n, attempts, ran⟩ | ⟨broken, ran⟩
  · obtain ⟨done, required⟩ := mapM_requireId_ok named
    rw [ran]
    simp only [write, required]
    have comes := upsertAll_comes named tables
    generalize result : upsertAll none ms tables = upserts at comes
    cases comes with
    | applied once =>
      rw [Retry.run_of_ok (by simp only [transact, result]; rfl)]
      exact .applied attempts once
    | overflow split before counter unfit =>
      rw [Retry.run_of_ok (by simp only [transact, result]; rfl)]
      exact .overflow attempts split before counter unfit
    | notNumber split before nan =>
      rw [Retry.run_of_lasting (by simp only [transact, result]; rfl) rfl]
      exact .notNumber attempts split before nan
  · rw [ran]
    exact .unavailable named broken

/-- The connection is lost after the first of two deltas, and both count once. -/
example :
    let done := write [5] (fun attempt => if attempt = 1 then some 1 else none)
      [⟨"a", .counter 2⟩, ⟨"a", .counter 3⟩] ⟨some {}⟩
    done.attempts = 2 ∧ done.slept = [5] ∧
      done.database.tables.map (·.counters.entries) = some [("a", 5)] := by
  decide

end Telemetry.Database
