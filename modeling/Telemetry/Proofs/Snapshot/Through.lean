import Mathlib.Data.List.Induction
import Telemetry.Proofs.Snapshot.Restored
import Telemetry.Snapshot.Saver

namespace Telemetry.Snapshot

/-- A batch of which one metric was refused, after those before it. -/
def PartlyApplied (operation : Operation) (before after : Memory) : Prop :=
  ∃ front m rest fault, operation = .write (.batch (front ++ m :: rest)) ∧ front ≠ [] ∧
    updateEach Memory.update front before = (.ok (), after) ∧
      Memory.update m after = (.error fault, after)

abbrev through (place : Place) (operation : Operation) (saved : Saved Memory) :
    Answer × Saved Memory :=
  (writeThrough Memory.storage place.path).perform operation saved

structure Performed (place : Place) (operation : Operation) (before : Saved Memory)
    (outcome : Answer × Saved Memory) :
    Prop where
  hosts : Hosts outcome.2.files place
  sound : outcome.2.state.IsSound
  saved : outcome.1 = .written (.ok ()) → LoadsTo outcome.2.files place outcome.2.state.contents
  unsaved : outcome.1 ≠ .written (.ok ()) → outcome.2.files = before.files ∧
    (outcome.2.state = before.state ∨ PartlyApplied operation before.state outcome.2.state)

variable {place : Place} {saved : Saved Memory} {operation : Operation}

theorem write_eq (write : Write) (path : String) (saved : Saved Memory) :
    (writeThrough Memory.storage path).write write saved =
      Saved.afterWrite Memory.storage path (Memory.storage.write write) saved := by
  cases write <;> rfl

theorem write_of_ok {write : Write} {path : String} {after : Memory}
    {result : Except StoreFault Nat} {files : Files}
    (done : Memory.storage.write write saved.state = (.ok (), after))
    (saves : save path (.ok after.contents) saved.files = (result, files)) :
    (writeThrough Memory.storage path).write write saved = (.ok (), ⟨after, files⟩) := by
  have lists : Memory.storage.all after = .ok after.contents := rfl
  rw [write_eq]
  simp only [Saved.afterWrite, Saved.run, Saved.save, done, lists, saves]

theorem write_of_error {write : Write} {after : Memory} {fault : StoreFault} (path : String)
    (failed : Memory.storage.write write saved.state = (.error fault, after)) :
    (writeThrough Memory.storage path).write write saved =
      (.error fault, ⟨after, saved.files⟩) := by
  rw [write_eq]
  simp only [Saved.afterWrite, Saved.run, failed]

theorem unchanged_or_partlyApplied {write : Write} {before after : Memory} {fault : StoreFault}
    (failed : Memory.storage.write write before = (.error fault, after)) :
    after = before ∨ PartlyApplied (.write write) before after := by
  cases write with
  | update m =>
    exact .inl
      (Memory.snd_update_of_error (congrArg Prod.fst failed) ▸ congrArg Prod.snd failed.symm)
  | batch ms =>
    obtain ⟨front, m, rest, middle, rfl, applied, refused⟩ := updateEach_error_iff.1 failed
    have same : middle = after := by
      have unchanged := Memory.snd_update_of_error (congrArg Prod.fst refused)
      rw [refused] at unchanged
      exact unchanged.symm
    subst same
    by_cases none : front = []
    · subst none
      cases applied
      exact .inl rfl
    · exact .inr ⟨front, m, rest, fault, rfl, none, applied, refused⟩

theorem performed (hosts : Hosts saved.files place) (sound : saved.state.IsSound)
    (finite : operation.IsFinite) :
    Performed place operation saved (through place operation saved) := by
  cases operation with
  | get key => exact ⟨hosts, sound, nofun, fun _ => ⟨rfl, .inl rfl⟩⟩
  | all => exact ⟨hosts, sound, nofun, fun _ => ⟨rfl, .inl rfl⟩⟩
  | write write =>
    have soundAfter := sound.write finite
    rcases done : Memory.storage.write write saved.state with ⟨fault | ⟨⟩, after⟩ <;>
      rw [done] at soundAfter
    · have outcome :
          through place (.write write) saved = (.written (.error fault), ⟨after, saved.files⟩) := by
        rw [through, Storage.perform, write_of_error place.path done]
        rfl
      rw [outcome]
      exact ⟨hosts, soundAfter, nofun, fun _ => ⟨rfl, unchanged_or_partlyApplied done⟩⟩
    · obtain ⟨files, saves, hostsAfter, landed⟩ := save_ok hosts after.contents
      have outcome : through place (.write write) saved = (.written (.ok ()), ⟨after, files⟩) := by
        rw [through, Storage.perform, write_of_ok done saves]
        rfl
      rw [outcome]
      exact ⟨hostsAfter, soundAfter, fun _ => loadsTo_of_node? soundAfter landed, fun failed =>
        (failed rfl).elim⟩

/-! ### Runs -/

/-- A batch was partly applied, and no write has succeeded since. -/
def Lags (place : Place) (operations : List Operation) (start : Saved Memory) : Prop :=
  ∃ front batch back, operations = front ++ batch :: back ∧
    let before := (runAll (through place) front start).2
    let outcome := through place batch before
    PartlyApplied batch before.state outcome.2.state ∧
      .written (.ok ()) ∉ (runAll (through place) back outcome.2).1

/-- Operations one after the other on a store that is saved to a place. -/
structure SavedThrough (place : Place) (operations : List Operation) (start : Saved Memory) :
    Prop where
  each : ∀ front operation back, operations = front ++ operation :: back →
    let before := (runAll (through place) front start).2
    Performed place operation before (through place operation before)
  behind : .written (.ok ()) ∈ (runAll (through place) operations start).1 →
    let last := (runAll (through place) operations start).2
    LoadsTo last.files place last.state.contents ∨ Lags place operations start

variable {operations : List Operation}

theorem kept_through (finite : ∀ operation ∈ operations, operation.IsFinite)
    (hosts : Hosts saved.files place) (sound : saved.state.IsSound) :
    Hosts (runAll (through place) operations saved).2.files place ∧
      (runAll (through place) operations saved).2.state.IsSound := by
  refine runAll_keeps (P := fun saved : Saved Memory => Hosts saved.files place ∧
    saved.state.IsSound) ?_ ⟨hosts, sound⟩
  intro operation member saved kept
  have step := performed kept.1 kept.2 (finite operation member)
  exact ⟨step.hosts, step.sound⟩

/-- One more operation that does not save does not make up for a batch. -/
theorem Lags.snoc (lags : Lags place operations saved)
    (unsaved : (through place operation (runAll (through place) operations saved).2).1 ≠
      .written (.ok ())) :
    Lags place (operations ++ [operation]) saved := by
  obtain ⟨front, batch, back, rfl, partly, since⟩ := lags
  refine ⟨front, batch, back ++ [operation], by simp, partly, ?_⟩
  rw [runAll_snoc, List.mem_append, List.mem_singleton, not_or]
  refine ⟨since, ?_⟩
  rw [runAll_append] at unsaved
  exact Ne.symm unsaved

theorem savedThrough (finite : ∀ operation ∈ operations, operation.IsFinite)
    (hosts : Hosts saved.files place) (sound : saved.state.IsSound) :
    SavedThrough place operations saved where
  each := by
    rintro front operation back rfl
    simp only [List.forall_mem_append, List.forall_mem_cons] at finite
    have kept := kept_through finite.1 hosts sound
    exact performed kept.1 kept.2 finite.2.1
  behind := by
    induction operations using List.reverseRec with
    | nil => nofun
    | append_singleton front operation ih =>
      simp only [List.forall_mem_append, List.forall_mem_singleton] at finite
      have kept := kept_through finite.1 hosts sound
      have step := performed kept.1 kept.2 finite.2
      rw [runAll_snoc]
      intro success
      by_cases saves : (through place operation (runAll (through place) front saved).2).1 =
        .written (.ok ())
      · exact .inl (step.saved saves)
      · obtain ⟨files, same | partly⟩ := step.unsaved saves
        · have before := (List.mem_append.1 success).resolve_right fun last =>
            saves (List.mem_singleton.1 last).symm
          rcases ih finite.1 before with loads | lags
          · left
            simp only [files, same]
            exact loads
          · exact .inr (lags.snoc saves)
        · exact .inr ⟨front, operation, [], rfl, partly, nofun⟩

end Telemetry.Snapshot
