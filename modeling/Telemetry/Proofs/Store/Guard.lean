import Telemetry.Proofs.Store.Relational

/-!
The guard on counters, term by term. Evaluation in 64-bit integers is that among all integers, as
long as each term that is reached fits. Main statement: the guard reaches no term that does not fit,
whatever the total and the delta are, and holds exactly where their sum fits, so that the tables
take a delta exactly when the memory does.
-/
namespace Telemetry

open Decimal (FitsInt64 toInt64?)

namespace Guard

def Term.exact (total delta : Int64) : Term → Int
  | .stored => total.toInt
  | .delta => delta.toInt
  | .literal n => n.toInt
  | .plus a b => a.exact total delta + b.exact total delta
  | .minus a b => a.exact total delta - b.exact total delta

def Term.parts : Term → List Term
  | .stored => [.stored]
  | .delta => [.delta]
  | .literal n => [.literal n]
  | .plus a b => .plus a b :: (a.parts ++ b.parts)
  | .minus a b => .minus a b :: (a.parts ++ b.parts)

def Condition.exact (total delta : Int64) : Condition → Bool
  | .atMost a b => a.exact total delta ≤ b.exact total delta
  | .atLeast a b => b.exact total delta ≤ a.exact total delta
  | .choose condition yes no =>
    if condition.exact total delta then yes.exact total delta else no.exact total delta

/-- The terms that are evaluated, which are those of the branch that is chosen. -/
def Condition.reached (total delta : Int64) : Condition → List Term
  | .atMost a b => a.parts ++ b.parts
  | .atLeast a b => b.parts ++ a.parts
  | .choose condition yes no => condition.reached total delta ++
    if condition.exact total delta then yes.reached total delta else no.reached total delta

def Fit (total delta : Int64) (terms : List Term) :
    Prop := ∀ term ∈ terms, FitsInt64 (term.exact total delta)

variable {total delta value : Int64}

theorem fit_cons {term : Term} {rest : List Term} :
    Fit total delta (term :: rest) ↔ FitsInt64 (term.exact total delta) ∧ Fit total delta rest :=
  List.forall_mem_cons

theorem fit_append {front back : List Term} :
    Fit total delta (front ++ back) ↔ Fit total delta front ∧ Fit total delta back :=
  List.forall_mem_append

theorem Term.mem_parts_self (term : Term) : term ∈ term.parts := by
  cases term <;> exact List.mem_cons_self ..

theorem exists_of_fit {term : Term} (fit : Fit total delta term.parts) :
    ∃ value : Int64, value.toInt = term.exact total delta := by
  obtain ⟨value, -, exact⟩ := Decimal.exists_toInt64? (fit term term.mem_parts_self)
  exact ⟨value, exact⟩

theorem combine_eq_some_iff (combine : Int → Int → Int) {a b : Term}
    (left : ∀ {value}, a.eval total delta = some value ↔
      Fit total delta a.parts ∧ value.toInt = a.exact total delta)
    (right : ∀ {value}, b.eval total delta = some value ↔
      Fit total delta b.parts ∧ value.toInt = b.exact total delta) :
    (do toInt64? (combine (← a.eval total delta).toInt (← b.eval total delta).toInt)) = some value ↔
      (FitsInt64 (combine (a.exact total delta) (b.exact total delta)) ∧
        Fit total delta (a.parts ++ b.parts)) ∧
        value.toInt = combine (a.exact total delta) (b.exact total delta) := by
  simp only [Option.bind_eq_bind, Option.bind_eq_some_iff, left, right, fit_append]
  constructor
  · rintro ⟨x, ⟨fitA, isA⟩, y, ⟨fitB, isB⟩, sum⟩
    rw [Decimal.toInt64?_eq_some, isA, isB] at sum
    have fits := Decimal.fitsInt64_toInt value
    rw [sum] at fits
    exact ⟨⟨fits, fitA, fitB⟩, sum⟩
  · rintro ⟨⟨fits, fitA, fitB⟩, sum⟩
    obtain ⟨x, isA⟩ := exists_of_fit fitA
    obtain ⟨y, isB⟩ := exists_of_fit fitB
    refine ⟨x, ⟨fitA, isA⟩, y, ⟨fitB, isB⟩, ?_⟩
    rw [Decimal.toInt64?_eq_some, isA, isB, sum]

theorem some_eq_some_iff (n : Int64) :
    some n = some value ↔ FitsInt64 n.toInt ∧ value.toInt = n.toInt := by
  rw [Option.some.injEq, Int64.toInt_inj, eq_comm]
  exact (and_iff_right (Decimal.fitsInt64_toInt n)).symm

/-- A term has a value exactly if its parts fit, and then it is that among all integers. -/
theorem Term.eval_eq_some_iff {term : Term} : term.eval total delta = some value ↔
    Fit total delta term.parts ∧ value.toInt = term.exact total delta := by
  induction term generalizing value with
  | stored =>
    rw [eval, some_eq_some_iff, parts, Fit, List.forall_mem_singleton]
    rfl
  | delta =>
    rw [eval, some_eq_some_iff, parts, Fit, List.forall_mem_singleton]
    rfl
  | literal n =>
    rw [eval, some_eq_some_iff, parts, Fit, List.forall_mem_singleton]
    rfl
  | plus a b left right =>
    rw [eval, combine_eq_some_iff (· + ·) left right, parts, fit_cons]
    rfl
  | minus a b left right =>
    rw [eval, combine_eq_some_iff (· - ·) left right, parts, fit_cons]
    rfl

theorem compare_eq_some_iff (compare : Int → Int → Bool) {a b : Term} {truth : Bool} :
    (do return compare (← a.eval total delta).toInt (← b.eval total delta).toInt) = some truth ↔
      Fit total delta (a.parts ++ b.parts) ∧
      truth = compare (a.exact total delta) (b.exact total delta) := by
  simp only [Option.bind_eq_bind, Option.bind_eq_some_iff, Option.pure_def, Option.some.injEq,
    Term.eval_eq_some_iff, fit_append]
  constructor
  · rintro ⟨x, ⟨fitA, isA⟩, y, ⟨fitB, isB⟩, rfl⟩
    rw [isA, isB]
    exact ⟨⟨fitA, fitB⟩, rfl⟩
  · rintro ⟨⟨fitA, fitB⟩, rfl⟩
    obtain ⟨x, isA⟩ := exists_of_fit fitA
    obtain ⟨y, isB⟩ := exists_of_fit fitB
    exact ⟨x, ⟨fitA, isA⟩, y, ⟨fitB, isB⟩, by rw [isA, isB]⟩

/-- A condition is decided exactly if the terms it reaches fit, and then as it is among all
integers. -/
theorem Condition.eval_eq_some_iff {condition : Condition} {truth : Bool} :
    condition.eval total delta = some truth ↔
      Fit total delta (condition.reached total delta) ∧ truth = condition.exact total delta := by
  induction condition generalizing truth with
  | atMost a b => exact compare_eq_some_iff fun x y => decide (x ≤ y)
  | atLeast a b => exact compare_eq_some_iff fun x y => decide (x ≤ y)
  | choose condition yes no first left right =>
    simp only [eval, Option.bind_eq_bind, Option.bind_eq_some_iff, first, reached, exact,
      fit_append]
    cases condition.exact total delta with
    | true => simp [left, and_assoc]
    | false => simp [right, and_assoc]

structure Guards (total delta : Int64) : Prop where
  accepts : fits.eval total delta = some true ↔ FitsInt64 (total.toInt + delta.toInt)
  refuses : fits.eval total delta = some false ↔ ¬ FitsInt64 (total.toInt + delta.toInt)
  reached : ∀ term ∈ fits.reached total delta, FitsInt64 (term.exact total delta)
  sum : fits.eval total delta = some true →
    (∀ term ∈ newTotal.parts, FitsInt64 (term.exact total delta)) ∧
      ∃ sum, newTotal.eval total delta = some sum ∧ sum.toInt = total.toInt + delta.toInt

theorem guards (total delta : Int64) : Guards total delta where
  accepts := by rw [eval_fits, Option.some.injEq, decide_eq_true_iff]
  refuses := by rw [eval_fits, Option.some.injEq, decide_eq_false_iff_not]
  reached := (Condition.eval_eq_some_iff.1 (eval_fits total delta)).1
  sum := by
    intro holds
    rw [eval_fits, Option.some.injEq, decide_eq_true_iff] at holds
    obtain ⟨sum, formed, exact⟩ := Decimal.exists_toInt64? holds
    have evaluated : newTotal.eval total delta = some sum := formed
    exact ⟨(Term.eval_eq_some_iff.1 evaluated).1, sum, evaluated, exact⟩

/-- The branch that is not chosen may not be evaluated: for a delta of the other sign it leaves the
range. -/
example : (Term.minus largest .delta).eval 0 (-1) = none ∧
    (Term.minus least .delta).eval 0 1 = none := by
  decide

end Guard

namespace Database

variable {memory tables : Memory} {id : String} {total delta : Int64}

/-- What becomes of a delta to one total in the memory and in the tables: it is added in both, or in
neither. -/
inductive AddsAlike (schedule : Retry.Schedule) (memory tables : Memory) (id : String)
    (total delta : Int64) : Prop
  | added {sum : Int64} (exact : sum.toInt = total.toInt + delta.toInt)
      (inMemory : Memory.update ⟨id, .counter delta⟩ memory =
        (.ok (), { memory with counters := memory.counters.put id sum }))
      (upserted : upsert ⟨id, .counter delta⟩ tables =
        .ok (true, { tables with counters := tables.counters.put id sum }))
      (inTables : (storage schedule).update ⟨id, .counter delta⟩ ⟨some tables⟩ =
        (.ok (), ⟨some { tables with counters := tables.counters.put id sum }⟩))
  | refused (unfit : ¬ FitsInt64 (total.toInt + delta.toInt))
      (inMemory : Memory.update ⟨id, .counter delta⟩ memory = (.error (.overflow id), memory))
      (upserted : upsert ⟨id, .counter delta⟩ tables = .ok (false, tables))
      (inTables : (storage schedule).update ⟨id, .counter delta⟩ ⟨some tables⟩ =
        (.error (.overflow id), ⟨some tables⟩))

theorem update_of_upsert {m : Metric} (named : m.id ≠ "") (schedule : Retry.Schedule)
    {accepted : Bool} {after : Memory} (upserted : upsert m tables = .ok (accepted, after)) :
    (storage schedule).update m ⟨some tables⟩ =
      if accepted then (.ok (), ⟨some after⟩) else (.error (.overflow m.id), ⟨some tables⟩) := by
  have required : [m].mapM requireId = .ok [()] := by
    rw [List.mapM_cons, requireId_ok named]
    rfl
  simp only [storage, write, required]
  cases accepted with
  | true =>
    rw [Retry.run_of_ok (by simp only [transact, upsertAll, upserted]; rfl)]
    rfl
  | false =>
    rw [Retry.run_of_ok (by simp only [transact, upsertAll, upserted]; rfl)]
    rfl

theorem addsAlike (schedule : Retry.Schedule) (named : id ≠ "")
    (inMemory : (memory.counters.get? id).getD 0 = total)
    (inTables : tables.counters.get? id = memory.counters.get? id) (delta : Int64) :
    AddsAlike schedule memory tables id total delta := by
  have upserted := @upsert_eq ⟨id, .counter delta⟩ rfl named tables
  rw [Metric.unsignZero, Value.unsignZero, Memory.update_counter named rfl, inTables,
    inMemory] at upserted
  have updated := @Memory.update_counter ⟨id, .counter delta⟩ named delta rfl memory
  rw [inMemory] at updated
  by_cases fits : FitsInt64 (total.toInt + delta.toInt)
  · obtain ⟨sum, formed, exact⟩ := Decimal.exists_toInt64? fits
    rw [Memory.sum?, formed] at upserted updated
    exact .added exact updated upserted (update_of_upsert named schedule upserted)
  · rw [Memory.sum?, Decimal.toInt64?_eq_none.2 fits] at upserted updated
    exact .refused fits updated upserted (update_of_upsert named schedule upserted)

/-- The guard decides whether a delta fits without leaving 64 bits, at any total, so that the tables
take the deltas that the memory takes and come to the same totals. -/
theorem totals_are_guarded (total delta : Int64) :
    Guard.Guards total delta ∧
      ∀ (schedule : Retry.Schedule) (memory tables : Memory) (id : String), id ≠ "" →
        (memory.counters.get? id).getD 0 = total →
        tables.counters.get? id = memory.counters.get? id →
          AddsAlike schedule memory tables id total delta := by
  refine ⟨Guard.guards total delta, ?_⟩
  intro schedule memory tables id named inMemory inTables
  exact addsAlike schedule named inMemory inTables delta

end Database
end Telemetry
