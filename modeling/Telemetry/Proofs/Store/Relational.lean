import Telemetry.Proofs.Retry
import Telemetry.Proofs.Store.Contents
import Telemetry.Store.Database

namespace Telemetry

open Decimal (FitsInt64 toInt64?)

namespace Guard

theorem eval_fits (total delta : Int64) :
    fits.eval total delta = some (decide (FitsInt64 (total.toInt + delta.toInt))) := by
  have largest : (9223372036854775807 : Int64).toInt = 9223372036854775807 := rfl
  have least : toInt64? ((-9223372036854775807 : Int64).toInt - (1 : Int64).toInt) =
      some Int64.minValue := by decide
  have leastInt : Int64.minValue.toInt = -9223372036854775808 := rfl
  have zero : (0 : Int64).toInt = 0 := rfl
  have deltaFits := Decimal.fitsInt64_toInt delta
  have totalFits := Decimal.fitsInt64_toInt total
  by_cases negative : delta.toInt < 0
  · have room : FitsInt64 (-9223372036854775808 - delta.toInt) := by
      unfold FitsInt64 at *
      omega
    obtain ⟨bound, there, exact⟩ := Decimal.exists_toInt64? room
    have isNegative : ¬ 0 ≤ delta.toInt := by omega
    have same : -9223372036854775808 - delta.toInt ≤ total.toInt ↔
        FitsInt64 (total.toInt + delta.toInt) := by
      unfold FitsInt64 at *
      omega
    simp only [fits, Condition.eval, Term.eval, Guard.least, least, leastInt, there, zero,
      isNegative, decide_false, Option.bind_eq_bind, Option.bind_some, Option.pure_def, exact,
      Bool.false_eq_true, if_false]
    exact congrArg some (decide_eq_decide.2 same)
  · have room : FitsInt64 (9223372036854775807 - delta.toInt) := by
      unfold FitsInt64 at *
      omega
    obtain ⟨bound, there, exact⟩ := Decimal.exists_toInt64? room
    have notNegative : 0 ≤ delta.toInt := by omega
    have same : total.toInt ≤ 9223372036854775807 - delta.toInt ↔
        FitsInt64 (total.toInt + delta.toInt) := by
      unfold FitsInt64 at *
      omega
    simp only [fits, Condition.eval, Term.eval, Guard.largest, largest, there, zero, notNegative,
      decide_true, Option.bind_eq_bind, Option.bind_some, Option.pure_def, exact, if_true]
    exact congrArg some (decide_eq_decide.2 same)

theorem eval_newTotal (total delta : Int64) : newTotal.eval total delta = Memory.sum? total delta :=
  rfl

end Guard

namespace Value

def unsignZero : Value → Value
  | gauge reading => gauge reading.dropZeroSign
  | counter total => counter total

@[simp] theorem kind_unsignZero (value : Value) : value.unsignZero.kind = value.kind := by
  cases value <;> rfl

end Value

namespace Metric

def unsignZero (m : Metric) : Metric := ⟨m.id, m.value.unsignZero⟩

/-- Whether a table can hold the value, which a reading that is no number is not. -/
def isNumber (m : Metric) : Bool :=
  match m.value with
  | .gauge reading => !reading.isNaN
  | .counter _ => true

end Metric

theorem mapM_requireId_ok {ms : List Metric} (named : ∀ m ∈ ms, m.id ≠ "") :
    ∃ done, ms.mapM requireId = .ok done := by
  induction ms with
  | nil => exact ⟨[], rfl⟩
  | cons m rest ih =>
    simp only [List.forall_mem_cons] at named
    obtain ⟨done, rest⟩ := ih named.2
    exact ⟨() :: done, by rw [List.mapM_cons, requireId_ok named.1, rest]; rfl⟩

theorem mapM_requireId_error {ms : List Metric} (unnamed : ∃ m ∈ ms, m.id = "") :
    ms.mapM requireId = .error (.invalid .emptyId) := by
  induction ms with
  | nil => simp at unnamed
  | cons m rest ih =>
    by_cases first : m.id = ""
    · rw [List.mapM_cons, requireId_error first]
      rfl
    · obtain ⟨other, member, empty⟩ := unnamed
      have inRest : other ∈ rest := by
        rcases List.mem_cons.1 member with rfl | inRest
        · exact absurd empty first
        · exact inRest
      rw [List.mapM_cons, requireId_ok first, ih ⟨other, inRest, empty⟩]
      rfl

namespace Database

open Memory (sum?)

theorem upsert_of_nan {m : Metric} (nan : m.isNumber = false) (tables : Memory) :
    upsert m tables = .error .other := by
  obtain ⟨id, value⟩ := m
  cases value with
  | gauge reading =>
    have isNaN : reading.isNaN = true := by simpa [Metric.isNumber] using nan
    simp only [upsert, isNaN, if_true]
  | counter delta => cases nan

theorem upsert_eq {m : Metric} (number : m.isNumber = true) (named : m.id ≠ "") (tables : Memory) :
    upsert m tables = .ok (match Memory.update m.unsignZero tables with
      | (.ok (), next) => (true, next)
      | (.error _, after) => (false, after)) := by
  obtain ⟨id, value⟩ := m
  have named' : (Metric.unsignZero ⟨id, value⟩).id ≠ "" := named
  cases value with
  | gauge reading =>
    have isNumber : reading.isNaN = false := by simpa [Metric.isNumber] using number
    rw [Memory.update_gauge named' rfl]
    simp only [upsert, isNumber, Metric.unsignZero]
    rfl
  | counter delta =>
    rw [Memory.update_counter named' rfl]
    simp only [upsert, Metric.unsignZero, Guard.eval_fits, Guard.eval_newTotal]
    cases there : tables.counters.get? id with
    | none => simp only [Option.getD_none, Memory.sum?_zero]
    | some total =>
      simp only [Option.getD_some, sum?]
      by_cases fits : FitsInt64 (total.toInt + delta.toInt)
      · obtain ⟨sum, found, -⟩ := Decimal.exists_toInt64? fits
        simp only [fits, decide_true, found]
      · simp only [fits, decide_false, Decimal.toInt64?_eq_none.2 fits]

/-- What becomes of the tables under upserts over a connection that is not lost. -/
inductive Upserts (ms : List Metric) (tables : Memory) :
    Except Error (Option String × Memory) → Prop
  | applied {next : Memory}
      (each : updateEach Memory.update (ms.map Metric.unsignZero) tables = (.ok (), next)) :
      Upserts ms tables (.ok (none, next))
  | overflow {id : String} {after : Memory}
      (each : updateEach Memory.update (ms.map Metric.unsignZero) tables =
        (.error (.overflow id), after)) :
      Upserts ms tables (.ok (some id, after))
  | notNumber (nan : ∃ m ∈ ms, m.isNumber = false) : Upserts ms tables (.error .other)

theorem update_error_of_named {m : Metric} (named : m.id ≠ "") {memory after : Memory}
    {fault : StoreFault} (failed : Memory.update m memory = (.error fault, after)) :
    fault = .overflow m.id := by
  cases value : m.value with
  | gauge reading => simp [Memory.update_gauge named value] at failed
  | counter delta =>
    rw [Memory.update_counter named value] at failed
    split at failed
    · cases failed
    · cases failed
      rfl

theorem upsertAll_cases {ms : List Metric} (named : ∀ m ∈ ms, m.id ≠ "") (tables : Memory) :
    Upserts ms tables (upsertAll none ms tables) := by
  induction ms generalizing tables with
  | nil => exact .applied rfl
  | cons m rest ih =>
    simp only [List.forall_mem_cons] at named
    cases number : m.isNumber with
    | false =>
      simp only [upsertAll, upsert_of_nan number]
      exact .notNumber ⟨m, List.mem_cons_self .., number⟩
    | true =>
      have first := upsert_eq number named.1 tables
      rcases step : Memory.update m.unsignZero tables with ⟨fault | ⟨⟩, next⟩
      · rw [step] at first
        simp only [upsertAll, first, reduceCtorEq, if_false]
        obtain rfl : fault = .overflow m.id :=
          update_error_of_named (m := m.unsignZero) named.1 step
        exact .overflow (updateEach_cons_error step _)
      · rw [step] at first
        simp only [upsertAll, first, Option.map_none]
        have same := updateEach_cons_ok step (rest.map Metric.unsignZero)
        generalize upsertAll none rest next = result, ih named.2 next = later
        cases later with
        | applied each => exact .applied (same.trans each)
        | overflow each => exact .overflow (same.trans each)
        | notNumber nan =>
          obtain ⟨m', member, nan⟩ := nan
          exact .notNumber ⟨m', List.mem_cons_of_mem _ member, nan⟩

/-- What a write answers and leaves, over a connection that is not lost: all metrics applied, or
none. -/
inductive Writes (ms : List Metric) (tables : Memory) : Except StoreFault Unit × Database → Prop
  | applied {next : Memory} (named : ∀ m ∈ ms, m.id ≠ "")
      (each : updateEach Memory.update (ms.map Metric.unsignZero) tables = (.ok (), next)) :
      Writes ms tables (.ok (), ⟨some next⟩)
  | unnamed (empty : ∃ m ∈ ms, m.id = "") :
      Writes ms tables (.error (.invalid .emptyId), ⟨some tables⟩)
  | overflow {id : String} {after : Memory} (named : ∀ m ∈ ms, m.id ≠ "")
      (each : updateEach Memory.update (ms.map Metric.unsignZero) tables =
        (.error (.overflow id), after)) :
      Writes ms tables (.error (.overflow id), ⟨some tables⟩)
  | notNumber (named : ∀ m ∈ ms, m.id ≠ "") (nan : ∃ m ∈ ms, m.isNumber = false) :
      Writes ms tables (.error .database, ⟨some tables⟩)

theorem updateBatch_cases (schedule : Retry.Schedule) (ms : List Metric) (tables : Memory) :
    Writes ms tables ((storage schedule).updateBatch ms ⟨some tables⟩) := by
  unfold storage
  by_cases empty : ∃ m ∈ ms, m.id = ""
  · simp only [write, mapM_requireId_error empty]
    exact .unnamed empty
  have named : ∀ m ∈ ms, m.id ≠ "" := fun m member unnamed => empty ⟨m, member, unnamed⟩
  obtain ⟨done, required⟩ := mapM_requireId_ok named
  simp only [write, required]
  have upserted := upsertAll_cases named tables
  generalize result : upsertAll none ms tables = upserts at upserted
  cases upserted with
  | applied each =>
    rw [Retry.run_of_ok (by simp only [transact, result]; rfl)]
    exact .applied named each
  | overflow each =>
    rw [Retry.run_of_ok (by simp only [transact, result]; rfl)]
    exact .overflow named each
  | notNumber nan =>
    rw [Retry.run_of_lasting (by simp only [transact, result]; rfl) rfl]
    exact .notNumber named nan

theorem update_cases (schedule : Retry.Schedule) (m : Metric) (tables : Memory) :
    Writes [m] tables ((storage schedule).update m ⟨some tables⟩) :=
  updateBatch_cases schedule [m] tables

end Database
end Telemetry
