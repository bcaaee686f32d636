import Telemetry.Proofs.Store.Relational

/-!
Stores by what they list. A store keeps metrics in some form, and leaves something of a list of
which it refuses one: the store in memory has the metrics before the refused one, the tables have
none. Main statements: each store follows its own keeping, whatever the metrics are as long as they
have names.
-/
namespace Telemetry

/-- How a store keeps metrics. -/
structure Keeping where
  /-- The form in which a metric is kept. -/
  form : Metric → Metric
  /-- What is listed after a list of metrics one of which was refused. -/
  Leaves : List Metric → Contents → Contents → Prop

namespace Keeping

/-- Metrics as they are, in order up to the first that does not fit. -/
def eachInTurn : Keeping where
  form := id
  Leaves ms before after := ∃ front m rest, ms = front ++ m :: rest ∧
    updateEach Contents.update front before = (.ok (), after) ∧
    ∃ fault, Contents.update m after = (.error fault, after)

def allOrNothing : Keeping where
  form := Metric.unsignZero
  Leaves _ before after := after = before

/-- What is left of a list that was not taken as a whole is what a front of it makes. -/
def LeavesFront (keeping : Keeping) : Prop :=
  ∀ {ms : List Metric} {before after : Contents}, keeping.Leaves ms before after →
    ∃ front, front <+: ms ∧ updateEach Contents.update (front.map keeping.form) before =
      (.ok (), after) ∧
      (front = ms → after = before)

theorem leavesFront_eachInTurn : eachInTurn.LeavesFront := by
  rintro ms before after ⟨front, m, rest, rfl, applied, -⟩
  refine ⟨front, List.prefix_append front _, ?_, ?_⟩
  · rw [eachInTurn, List.map_id]
    exact applied
  · intro whole
    simp at whole

theorem leavesFront_allOrNothing : allOrNothing.LeavesFront := by
  rintro ms before after unchanged
  exact ⟨[], List.nil_prefix, by rw [unchanged]; rfl, fun _ => unchanged⟩

variable {σ : Type}

/-- What a store answers to metrics, and what it lists then. No fault of it blames the metrics. -/
inductive Kept (keeping : Keeping) (storage : Storage σ) (ms : List Metric) (before : Contents) :
    Except StoreFault Unit × σ → Prop
  | applied {state : σ} {after : Contents} (lists : storage.all state = .ok after)
      (each : updateEach Contents.update (ms.map keeping.form) before = (.ok (), after)) :
      Kept keeping storage ms before (.ok (), state)
  | refused {fault : StoreFault} {state : σ} {after : Contents}
      (blameless : fault = .database ∨ ∃ id, fault = .overflow id)
      (lists : storage.all state = .ok after) (leaves : keeping.Leaves ms before after) :
      Kept keeping storage ms before (.error fault, state)

structure Follows (keeping : Keeping) (storage : Storage σ) : Prop where
  key_form : ∀ m, (keeping.form m).key = m.key
  batch : ∀ {ms : List Metric} {state : σ} {before : Contents}, (∀ m ∈ ms, m.id ≠ "") →
    storage.all state = .ok before → keeping.Kept storage ms before (storage.updateBatch ms state)
  single : ∀ (m : Metric) (state : σ), storage.update m state = storage.updateBatch [m] state
  get : ∀ {state : σ} {contents : Contents} {key : Key} {value : Value},
    storage.all state = .ok contents → contents.get? key = some value →
      storage.get key state = .ok ⟨key.id, value⟩

end Keeping

namespace Memory

theorem get_of_contents {memory : Memory} {key : Key} {value : Value}
    (there : memory.contents.get? key = some value) : get key memory = .ok ⟨key.id, value⟩ := by
  rw [get?_contents] at there
  exact get_eq_ok_iff.2 ⟨value, there, rfl⟩

theorem follows : Keeping.eachInTurn.Follows storage where
  key_form _ := rfl
  batch := by
    intro ms memory before named lists
    cases lists
    have onContents := updateEach_contents ms memory
    change Keeping.eachInTurn.Kept storage ms memory.contents (updateEach update ms memory)
    rcases each : updateEach update ms memory with ⟨fault | ⟨⟩, after⟩
    · obtain ⟨front, m, rest, split, applied, failed⟩ := stopsAt_iff.1 (updateEach_error_iff.1 each)
      refine .refused ?_ rfl ⟨front, m, rest, split, ?_, fault, ?_⟩
      · have member : m ∈ ms := by
          rw [split]
          exact List.mem_append_right _ (List.mem_cons_self ..)
        exact .inr ⟨m.id, Database.update_error_of_named (named m member) failed⟩
      · rw [updateEach_contents, applied]
      · rw [update_contents, failed]
    · rw [each] at onContents
      refine .applied rfl ?_
      rw [Keeping.eachInTurn, List.map_id]
      exact onContents
  single m memory := (updateEach_singleton m memory).symm
  get := by
    intro memory contents key value lists there
    cases lists
    exact get_of_contents there

end Memory

namespace Database

theorem all_eq_ok_iff {schedule : Retry.Schedule} {database : Database} {contents : Contents} :
    (storage schedule).all database = .ok contents ↔
      ∃ tables, database = ⟨some tables⟩ ∧ tables.contents = contents := by
  obtain ⟨_ | tables⟩ := database <;> simp [storage, read]

theorem follows (schedule : Retry.Schedule) : Keeping.allOrNothing.Follows (storage schedule) where
  key_form m := congrArg (Key.mk m.id) (Value.kind_unsignZero m.value)
  batch := by
    intro ms database before named lists
    obtain ⟨tables, rfl, rfl⟩ := all_eq_ok_iff.1 lists
    have outcome := updateBatch_cases schedule ms tables
    generalize (storage schedule).updateBatch ms ⟨some tables⟩ = written at outcome ⊢
    cases outcome with
    | @applied next _ each =>
      have onContents := Memory.updateEach_contents (ms.map Metric.unsignZero) tables
      rw [each] at onContents
      have nextLists : (storage schedule).all ⟨some next⟩ = .ok next.contents := rfl
      exact .applied nextLists onContents
    | unnamed empty =>
      obtain ⟨m, member, unnamed⟩ := empty
      exact absurd unnamed (named m member)
    | @overflow id _ _ each => exact .refused (.inr ⟨id, rfl⟩) rfl rfl
    | notNumber _ nan => exact .refused (.inl rfl) rfl rfl
  single _ _ := rfl
  get := by
    intro database contents key value lists there
    obtain ⟨tables, rfl, rfl⟩ := all_eq_ok_iff.1 lists
    exact Memory.get_of_contents there

end Database
end Telemetry
