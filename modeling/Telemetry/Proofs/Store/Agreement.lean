import Mathlib.Data.List.Forall2
import Telemetry.Proofs.Store.Relational

/-!
The two stores side by side, from empty and with finite readings. The tables mirror the memory,
signs of zero apart. Main statement: until a batch fails the stores answer alike, and the first
batch that fails on one fails on the other, from where the memory has the metrics before the failing
one and the tables have none of the batch.
-/
namespace Telemetry

namespace Binary64

/-- Equality as numbers: the zeros are equal, and what is no number equals nothing. -/
def equals : Binary64 → Binary64 → Bool
  | .finite a p, .finite b q => p == q && (a == b || p.val == 0)
  | .infinite a, .infinite b => a == b
  | _, _ => false

theorem equals_dropZeroSign {v : Binary64} (finite : v.isFinite) :
    v.equals v.dropZeroSign = true := by
  cases v with
  | nan => cases finite
  | infinite negative => cases finite
  | finite negative place =>
    by_cases zeroPlace : place.val = 0
    · have place_eq : place = ⟨0, by decide⟩ := Fin.ext zeroPlace
      simp [dropZeroSign, isZero, zero, equals, place_eq]
    · simp [dropZeroSign, isZero, equals, zeroPlace]

theorem isNaN_of_isFinite {v : Binary64} (finite : v.isFinite) : v.isNaN = false := by
  cases v <;> first | rfl | cases finite

end Binary64

namespace Value

def equals : Value → Value → Bool
  | gauge a, gauge b => a.equals b
  | counter a, counter b => a == b
  | _, _ => false

theorem equals_unsignZero {value : Value} (finite : value.isFinite) :
    value.equals value.unsignZero = true := by
  cases value with
  | gauge reading => exact Binary64.equals_dropZeroSign finite
  | counter total => simp [equals, unsignZero]

end Value

theorem Metric.isNumber_of_isFinite {m : Metric} (finite : m.value.isFinite) :
    m.isNumber = true := by
  obtain ⟨id, value⟩ := m
  cases value with
  | gauge reading => simp [isNumber, Binary64.isNaN_of_isFinite finite]
  | counter delta => rfl

def Operation.IsFinite : Operation → Prop
  | .write (.update m) => m.value.isFinite
  | .write (.batch ms) => ∀ m ∈ ms, m.value.isFinite
  | .get _ | .all => True

def Contents.Agree (a b : Contents) : Prop :=
  ∀ key, (a.get? key = none ∧ b.get? key = none) ∨
    ∃ value value', a.get? key = some value ∧ b.get? key = some value' ∧ value.equals value'

inductive Answer.Agree : Answer → Answer → Prop
  | written (result : Except StoreFault Unit) : Agree (.written result) (.written result)
  | found {m m' : Metric} (id : m.id = m'.id) (value : m.value.equals m'.value) :
      Agree (.found (.ok m)) (.found (.ok m'))
  | missing (fault : StoreFault) : Agree (.found (.error fault)) (.found (.error fault))
  | listed {contents contents' : Contents} (same : contents.Agree contents') :
      Agree (.listed (.ok contents)) (.listed (.ok contents'))

def failedBatch : Operation → Answer → Bool
  | .write (.batch _), .written (.error _) => true
  | _, _ => false

def Unfailed (operations : List Operation) (answers : List Answer) : Prop :=
  ∀ step ∈ operations.zip answers, failedBatch step.1 step.2 = false

namespace Memory

def unsignZeros (memory : Memory) : Memory :=
  { memory with gauges := memory.gauges.mapValues Binary64.dropZeroSign }

def IsFinite (memory : Memory) : Prop := ∀ key value, memory.lookup key = some value →
    value.isFinite

theorem lookup_unsignZeros (memory : Memory) (key : Key) :
    memory.unsignZeros.lookup key = (memory.lookup key).map Value.unsignZero := by
  obtain ⟨id, kind⟩ := key
  cases kind with
  | gauge =>
    simp only [lookup, unsignZeros, Table.get?_mapValues, Option.map_map]
    rfl
  | counter =>
    simp only [lookup, unsignZeros, Option.map_map]
    rfl

theorem update_unsignZero (m : Metric) (memory : Memory) :
    update m.unsignZero memory.unsignZeros =
      ((update m memory).1, (update m memory).2.unsignZeros) := by
  obtain ⟨id, value⟩ := m
  by_cases unnamed : id = ""
  · have unnamed' : (Metric.unsignZero ⟨id, value⟩).id = "" := unnamed
    rw [update_of_unnamed unnamed', update_of_unnamed (m := ⟨id, value⟩) unnamed]
  have named : (Metric.unsignZero ⟨id, value⟩).id ≠ "" := unnamed
  cases value with
  | gauge reading =>
    rw [update_gauge named rfl, update_gauge (m := ⟨id, .gauge reading⟩) unnamed rfl]
    simp only [unsignZeros, Table.mapValues_put]
    rfl
  | counter delta =>
    rw [update_counter named rfl, update_counter (m := ⟨id, .counter delta⟩) unnamed rfl]
    simp only [unsignZeros, Metric.unsignZero]
    cases sum? ((memory.counters.get? id).getD 0) delta <;> rfl

theorem updateEach_unsignZero (ms : List Metric) (memory : Memory) :
    updateEach update (ms.map Metric.unsignZero) memory.unsignZeros =
      ((updateEach update ms memory).1, (updateEach update ms memory).2.unsignZeros) := by
  induction ms generalizing memory with
  | nil => rfl
  | cons m rest ih =>
    have step := update_unsignZero m memory
    rcases first : update m memory with ⟨fault | ⟨⟩, next⟩
    · rw [first] at step
      rw [updateEach_cons_error first, List.map_cons, updateEach_cons_error step]
    · rw [first] at step
      rw [updateEach_cons_ok first, List.map_cons, updateEach_cons_ok step, ih]

theorem lookup_update_self {m : Metric} {memory after : Memory} {value : Value}
    (applied : update m memory = (.ok (), after)) (there : after.lookup m.key = some value) :
    (∃ reading, m.value = .gauge reading ∧ value = .gauge reading) ∨
      ∃ sum, value = .counter sum := by
  have named : m.id ≠ "" := by
    intro unnamed
    rw [update_of_unnamed unnamed] at applied
    cases applied
  cases sort : m.value with
  | gauge reading =>
    rw [update_gauge named sort] at applied
    cases applied
    rw [lookup_put_gauge, Metric.key, Metric.kind, sort] at there
    simp [Value.kind] at there
    exact .inl ⟨reading, rfl, there.symm⟩
  | counter delta =>
    have kind : m.key.kind = .counter := by rw [Metric.key, Metric.kind, sort]; rfl
    simp only [lookup, kind] at there
    obtain ⟨sum, -, rfl⟩ := Option.map_eq_some_iff.1 there
    exact .inr ⟨sum, rfl⟩

theorem IsFinite.update {m : Metric} (finite : m.value.isFinite) {memory : Memory}
    (all : memory.IsFinite) : (update m memory).2.IsFinite := by
  intro key value there
  rcases step : Memory.update m memory with ⟨fault | ⟨⟩, after⟩
  · rw [snd_update_of_error (congrArg Prod.fst step)] at there
    exact all key value there
  by_cases own : key = m.key
  · rw [step, own] at there
    rcases lookup_update_self step there with ⟨reading, sort, rfl⟩ | ⟨sum, rfl⟩
    · rw [sort] at finite
      exact finite
    · rfl
  · rw [lookup_update_of_ne own] at there
    exact all key value there

theorem named_of_updateEach {ms : List Metric} {memory after : Memory}
    (applied : updateEach update ms memory = (.ok (), after)) : ∀ m ∈ ms, m.id ≠ "" := by
  induction ms generalizing memory with
  | nil => simp
  | cons m rest ih =>
    rcases step : Memory.update m memory with ⟨fault | ⟨⟩, next⟩
    · rw [updateEach_cons_error step] at applied
      cases applied
    · rw [updateEach_cons_ok step] at applied
      rw [List.forall_mem_cons]
      refine ⟨?_, ih applied⟩
      intro unnamed
      rw [update_of_unnamed unnamed] at step
      cases step

theorem IsFinite.updateEach {ms : List Metric} (finite : ∀ m ∈ ms, m.value.isFinite)
    {memory : Memory} (all : memory.IsFinite) : (updateEach Memory.update ms memory).2.IsFinite :=
  updateEach_keeps (fun m member _ all => all.update (finite m member)) all

end Memory

namespace Database

/-- The tables hold what the memory does, the signs of its zeros apart. -/
structure Mirrors (database : Database) (memory : Memory) : Prop where
  tables : database = ⟨some memory.unsignZeros⟩
  finite : memory.IsFinite

variable {database : Database} {memory : Memory}

theorem mirrors_empty : Mirrors (migrateUp {}) {} where
  tables := rfl
  finite key value there := by
    obtain ⟨id, kind⟩ := key
    cases kind <;> cases there

theorem Mirrors.update (mirrors : database.Mirrors memory) (schedule : Retry.Schedule) {m : Metric}
    (finite : m.value.isFinite) :
    ((storage schedule).update m database).1 = (Memory.update m memory).1 ∧
      Mirrors ((storage schedule).update m database).2 (Memory.update m memory).2 := by
  obtain rfl := mirrors.tables
  have next := mirrors.finite.update finite
  have outcome := update_cases schedule m memory.unsignZeros
  generalize (storage schedule).update m ⟨some memory.unsignZeros⟩ = written at outcome ⊢
  cases outcome with
  | applied named each =>
    rw [List.map_singleton, updateEach_singleton, Memory.update_unsignZero, Prod.mk.injEq] at each
    exact ⟨each.1.symm, ⟨by rw [each.2], next⟩⟩
  | unnamed empty =>
    obtain ⟨_, member, unnamed⟩ := empty
    rw [List.mem_singleton.1 member] at unnamed
    rw [Memory.update_of_unnamed unnamed]
    exact ⟨rfl, mirrors⟩
  | overflow named each =>
    rw [List.map_singleton, updateEach_singleton, Memory.update_unsignZero, Prod.mk.injEq] at each
    rw [Memory.snd_update_of_error each.1]
    exact ⟨each.1.symm, mirrors⟩
  | notNumber named nan =>
    obtain ⟨_, member, nan⟩ := nan
    rw [List.mem_singleton.1 member, Metric.isNumber_of_isFinite finite] at nan
    cases nan

theorem Mirrors.batch (mirrors : database.Mirrors memory) (schedule : Retry.Schedule)
    {ms : List Metric} (finite : ∀ m ∈ ms, m.value.isFinite) :
    (∃ after after', updateEach Memory.update ms memory = (.ok (), after) ∧
      (storage schedule).updateBatch ms database = (.ok (), after') ∧ Mirrors after' after) ∨
    ∃ fault after fault', updateEach Memory.update ms memory = (.error fault, after) ∧
      (storage schedule).updateBatch ms database = (.error fault', database) := by
  obtain rfl := mirrors.tables
  have next := mirrors.finite.updateEach finite
  have commutes := Memory.updateEach_unsignZero ms memory
  have outcome := updateBatch_cases schedule ms memory.unsignZeros
  generalize (storage schedule).updateBatch ms ⟨some memory.unsignZeros⟩ = written at outcome ⊢
  cases outcome with
  | applied named each =>
    rw [commutes, Prod.mk.injEq] at each
    exact .inl ⟨_, _, Prod.ext each.1 rfl, rfl, ⟨by rw [each.2], next⟩⟩
  | unnamed empty =>
    obtain ⟨m, member, unnamed⟩ := empty
    rcases batch : updateEach Memory.update ms memory with ⟨fault | ⟨⟩, after⟩
    · exact .inr ⟨fault, after, _, rfl, rfl⟩
    · exact absurd unnamed (Memory.named_of_updateEach batch m member)
  | overflow named each =>
    rw [commutes, Prod.mk.injEq] at each
    exact .inr ⟨_, _, _, Prod.ext each.1 rfl, rfl⟩
  | notNumber named nan =>
    obtain ⟨m, member, nan⟩ := nan
    rw [Metric.isNumber_of_isFinite (finite m member)] at nan
    cases nan

theorem Mirrors.get (mirrors : database.Mirrors memory) (schedule : Retry.Schedule) (key : Key) :
    Answer.Agree (.found (Memory.get key memory))
      (.found ((storage schedule).get key database)) := by
  obtain rfl := mirrors.tables
  have tabled :
      (storage schedule).get key ⟨some memory.unsignZeros⟩ = Memory.get key memory.unsignZeros :=
    rfl
  rw [tabled, Memory.get, Memory.get, Memory.lookup_unsignZeros]
  cases there : memory.lookup key with
  | none => exact .missing _
  | some value => exact .found rfl (Value.equals_unsignZero (mirrors.finite key value there))

theorem agree_unsignZeros (finite : memory.IsFinite) :
    memory.contents.Agree memory.unsignZeros.contents := by
  intro key
  rw [Memory.get?_contents, Memory.get?_contents, Memory.lookup_unsignZeros]
  cases there : memory.lookup key with
  | none => exact .inl ⟨rfl, rfl⟩
  | some value => exact .inr ⟨value, _, rfl, rfl, Value.equals_unsignZero (finite key value there)⟩

/-- One operation fails as a batch on both stores or on neither, and then it is answered alike. -/
theorem Mirrors.perform (mirrors : database.Mirrors memory) (schedule : Retry.Schedule)
    {operation : Operation} (finite : operation.IsFinite) :
    failedBatch operation (Memory.storage.perform operation memory).1 =
        failedBatch operation ((storage schedule).perform operation database).1 ∧
      (failedBatch operation (Memory.storage.perform operation memory).1 = false →
        (Memory.storage.perform operation memory).1.Agree
            ((storage schedule).perform operation database).1 ∧
          Mirrors ((storage schedule).perform operation database).2
            (Memory.storage.perform operation memory).2) := by
  cases operation with
  | write write =>
    cases write with
    | update m =>
      obtain ⟨same, next⟩ := mirrors.update schedule finite
      have alike : (storage schedule).perform (.write (.update m)) database =
          (.written (Memory.update m memory).1, ((storage schedule).update m database).2) := by
        rw [← same]
        rfl
      rw [alike]
      exact ⟨rfl, fun _ => ⟨.written _, next⟩⟩
    | batch ms =>
      -- After a batch that fails the stores differ: the one in memory keeps its front.
      rcases mirrors.batch schedule finite with ⟨after, after', applied, applied', next⟩ |
        ⟨fault, after, fault', failed, failed'⟩
      · have here :
            Memory.storage.perform (.write (.batch ms)) memory = (.written (.ok ()), after) :=
          congrArg (Prod.map Answer.written id) applied
        have there : (storage schedule).perform (.write (.batch ms)) database =
            (.written (.ok ()), after') := congrArg (Prod.map Answer.written id) applied'
        rw [here, there]
        exact ⟨rfl, fun _ => ⟨.written _, next⟩⟩
      · have here : Memory.storage.perform (.write (.batch ms)) memory =
            (.written (.error fault), after) := congrArg (Prod.map Answer.written id) failed
        have there : (storage schedule).perform (.write (.batch ms)) database =
            (.written (.error fault'), database) := congrArg (Prod.map Answer.written id) failed'
        rw [here, there]
        exact ⟨rfl, fun unfailed => nomatch unfailed⟩
  | get key => exact ⟨rfl, fun _ => ⟨mirrors.get schedule key, mirrors⟩⟩
  | all =>
    refine ⟨rfl, fun _ => ⟨?_, mirrors⟩⟩
    obtain rfl := mirrors.tables
    exact .listed (agree_unsignZeros mirrors.finite)

theorem unfailed_cons {operation : Operation} {answer : Answer} {operations : List Operation}
    {answers : List Answer} : Unfailed (operation :: operations) (answer :: answers) ↔
      failedBatch operation answer = false ∧ Unfailed operations answers := by
  simp [Unfailed]

theorem Mirrors.run (mirrors : database.Mirrors memory) (schedule : Retry.Schedule)
    {operations : List Operation} (finite : ∀ operation ∈ operations, operation.IsFinite) :
    (Unfailed operations (runAll Memory.storage.perform operations memory).1 ↔
        Unfailed operations (runAll (storage schedule).perform operations database).1) ∧
      (Unfailed operations (runAll Memory.storage.perform operations memory).1 →
        List.Forall₂ Answer.Agree (runAll Memory.storage.perform operations memory).1
            (runAll (storage schedule).perform operations database).1 ∧
          Mirrors (runAll (storage schedule).perform operations database).2
            (runAll Memory.storage.perform operations memory).2) := by
  induction operations generalizing database memory with
  | nil => exact ⟨Iff.rfl, fun _ => ⟨.nil, mirrors⟩⟩
  | cons operation rest ih =>
    simp only [List.forall_mem_cons] at finite
    obtain ⟨sameFailure, unlessFailed⟩ := mirrors.perform schedule finite.1
    simp only [runAll, unfailed_cons, ← sameFailure]
    cases failure : failedBatch operation (Memory.storage.perform operation memory).1 with
    | true => simp
    | false =>
      obtain ⟨agree, next⟩ := unlessFailed failure
      obtain ⟨iff, later⟩ := ih next finite.2
      simp only [true_and]
      refine ⟨iff, fun unfailed => ?_⟩
      obtain ⟨agreeLater, last⟩ := later unfailed
      exact ⟨.cons agree agreeLater, last⟩

/-- Both stores, from empty: while no batch has failed they answer alike and list the same, and a
batch that fails then fails on both, with the metrics before the failing one in memory and none of
it in the tables. -/
theorem stores_agree (schedule : Retry.Schedule) (operations : List Operation)
    (finite : ∀ operation ∈ operations, operation.IsFinite) :
    let (answers, memory) := runAll Memory.storage.perform operations {}
    let (answers', database) := runAll (storage schedule).perform operations (migrateUp {})
    (Unfailed operations answers ↔ Unfailed operations answers') ∧
    (Unfailed operations answers →
      List.Forall₂ Answer.Agree answers answers' ∧
      (∃ contents contents', Memory.storage.all memory = .ok contents ∧
        (storage schedule).all database = .ok contents' ∧ contents.Agree contents') ∧
      ∀ ms, (∀ m ∈ ms, m.value.isFinite) →
        ((Memory.storage.updateBatch ms memory).1 = .ok () ↔
          ((storage schedule).updateBatch ms database).1 = .ok ()) ∧
        ∀ fault after, Memory.storage.updateBatch ms memory = (.error fault, after) →
          (∃ front m rest, ms = front ++ m :: rest ∧
            updateEach Memory.storage.update front memory = (.ok (), after) ∧
            Memory.storage.update m after = (.error fault, after)) ∧
          ((storage schedule).updateBatch ms database).2 = database) := by
  obtain ⟨iff, later⟩ := mirrors_empty.run schedule finite
  refine ⟨iff, fun unfailed => ?_⟩
  obtain ⟨agree, mirrors⟩ := later unfailed
  refine ⟨agree, ?_, ?_⟩
  · refine ⟨_, _, rfl, ?_, agree_unsignZeros mirrors.finite⟩
    rw [mirrors.tables]
    rfl
  intro ms finite
  rcases mirrors.batch schedule finite with ⟨after, after', applied, applied', -⟩ |
    ⟨fault, after, fault', failed, failed'⟩
  · have here : Memory.storage.updateBatch ms _ = (.ok (), after) := applied
    rw [here, applied']
    exact ⟨Iff.rfl, fun fault after failed => nomatch failed⟩
  · have here : Memory.storage.updateBatch ms _ = (.error fault, after) := failed
    rw [here, failed']
    refine ⟨by simp, fun fault after same => ?_⟩
    cases same
    exact ⟨Memory.stopsAt_iff.1 (updateEach_error_iff.1 failed), rfl⟩

/-- A counter at the largest integer, taken down and past it again, beside a reading of minus zero.
-/
def limitRun : List Operation := [
  .write (.update ⟨"c", .counter 9223372036854775807⟩),
  .write (.batch [⟨"c", .gauge .negativeZero⟩, ⟨"c", .counter (-1)⟩]),
  .get ⟨"c", .gauge⟩,
  .write (.update ⟨"c", .counter 5⟩),
  .all]

theorem stores_agree_at_limit :
    (∀ operation ∈ limitRun, operation.IsFinite) ∧
    Unfailed limitRun (runAll Memory.storage.perform limitRun {}).1 ∧
    List.Forall₂ Answer.Agree (runAll Memory.storage.perform limitRun {}).1
      (runAll (storage Retry.standard).perform limitRun (migrateUp {})).1 := by
  have finite : ∀ operation ∈ limitRun, operation.IsFinite := by
    simp [limitRun, Operation.IsFinite, Value.isFinite, Binary64.isFinite, Binary64.negativeZero]
  have unfailed : Unfailed limitRun (runAll Memory.storage.perform limitRun {}).1 := by
    unfold Unfailed
    decide +kernel
  exact ⟨finite, unfailed, ((stores_agree Retry.standard limitRun finite).2 unfailed).1⟩

end Database
end Telemetry
