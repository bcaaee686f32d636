import Telemetry.Proofs.Snapshot.Writers

/-!
Writers and the task that saves once more when it is cancelled. The task takes no lock, so that its
save and a writer's can meet, and one that has read an older store can land last. Main statement: in
runs where no two saves meet, the file loads in the end to what the store lists or to what the task
read, and the task has read nothing from before it was cancelled; and if all calls had returned by
then, it is what the store lists.
-/
namespace Telemetry.Snapshot

variable {place : Place} {path : String} {files next : Files} {memory : Memory}
  {save after : Saving}

namespace Savers

variable {now then_ : Savers} {held : List Memory}

theorem pending_before (pending : then_.task = .pending) (step : Step path now then_) :
    now.task = .pending := by
  cases step with
  | apply | refuse | lock | save | unlock => exact pending
  | cancel still => exact still
  | close | finish => cases pending

theorem apart_of_pending (pending : now.task = .pending) (path : String) : now.Apart path := by
  intro save other _ closing
  rw [pending] at closing
  cases closing

theorem apartSteps_of_pending (pending : then_.task = .pending) (steps : Steps path now then_) :
    ApartSteps path now then_ := by
  induction steps with
  | refl => exact .refl
  | tail _ step ih =>
    exact (ih (pending_before pending step)).tail ⟨step, apart_of_pending pending path⟩

/-! ### When all calls have returned -/

structure Quiet (place : Place) (now : Savers) : Prop where
  returned : ∀ writer ∈ now.writers, ∃ result, writer = .returned result
  sound : now.memory.IsSound
  hosts : Hosts now.files place
  saving : ∀ save, now.task = .saving save → save.IsReady place now.files ∧
    save.IsCurrent now.memory
  landed : ∀ read, now.task = .saving (.putting read []) → now.Shows place read
  ended : ∀ read, now.task = .ended read → now.Shows place now.memory

theorem Quiet.absurd {P : Prop} (quiet : now.Quiet place) {writer : Nat} {old : Writer}
    (here : now.writers[writer]? = some old) (busy : ∀ result, old ≠ .returned result) : P := by
  obtain ⟨result, same⟩ := quiet.returned old (List.mem_of_getElem? here)
  exact (busy result same).elim

theorem Quiet.step (quiet : now.Quiet place) (step : Step place.path now then_) :
    then_.Quiet place := by
  cases step with
  | apply here | refuse here | lock here | save here | unlock here => exact quiet.absurd here nofun
  | cancel pending =>
    refine ⟨quiet.returned, quiet.sound, quiet.hosts, ?_, nofun, nofun⟩
    rintro save ⟨⟩
    exact ⟨trivial, trivial⟩
  | close here move =>
    obtain ⟨ready, current⟩ := quiet.saving _ here
    have moved := move.moved quiet.hosts quiet.sound ready
    refine ⟨quiet.returned, quiet.sound, moved.hosts, ?_, ?_, nofun⟩
    · rintro save ⟨⟩
      exact ⟨moved.ready, move.isCurrent current⟩
    · rintro read ⟨⟩
      rcases moved.target with ⟨unlanded, -⟩ | ⟨other, same, landed⟩
      · exact (unlanded read rfl).elim
      · cases same
        exact landed
  | @finish read here =>
    refine ⟨quiet.returned, quiet.sound, quiet.hosts, nofun, nofun, ?_⟩
    intro _ _
    have current : read = now.memory := (quiet.saving _ here).2
    exact current ▸ quiet.landed read here

theorem Quiet.steps (quiet : now.Quiet place) (steps : Steps place.path now then_) :
    then_.Quiet place := by
  induction steps with
  | refl => exact quiet
  | tail _ step ih => exact ih.step step

theorem Kept.quiet (kept : now.Kept place) (pending : now.task = .pending)
    (returned : ∀ writer ∈ now.writers, ∃ result, writer = .returned result) : now.Quiet place := by
  refine ⟨returned, kept.locked.sound, kept.tidy.hosts, ?_, ?_, ?_⟩ <;> intro _ same <;>
    rw [pending] at same <;>
    cases same

/-! ### When calls are still under way -/

structure TaskReads (held : List Memory) (now : Savers) : Prop where
  here : now.memory ∈ held
  saving : ∀ save, now.task = .saving save → save.ReadFrom held
  ended : ∀ read, now.task = .ended (some read) → Memory.Among held read

theorem TaskReads.step (reads : now.TaskReads held) (step : Step path now then_) :
    then_.TaskReads (held ++ [then_.memory]) := by
  have here : then_.memory ∈ held ++ [then_.memory] :=
    List.mem_append_right _ (List.mem_singleton_self _)
  have saving : ∀ save, now.task = .saving save → save.ReadFrom (held ++ [then_.memory]) :=
    fun save same => (reads.saving save same).mono _
  have ended : ∀ read, now.task = .ended (some read) → Memory.Among (held ++ [then_.memory]) read :=
    fun read same => (reads.ended read same).mono _
  cases step with
  | apply | refuse | lock | save | unlock => exact ⟨here, saving, ended⟩
  | cancel pending =>
    refine ⟨here, ?_, nofun⟩
    rintro save ⟨⟩
    trivial
  | close there move =>
    refine ⟨here, ?_, nofun⟩
    rintro save ⟨⟩
    exact (move.readFrom reads.here (reads.saving _ there)).mono _
  | finish there =>
    refine ⟨here, nofun, ?_⟩
    rintro read ⟨⟩
    exact saving _ there

theorem taskReads_of_passes (pending : now.task = .pending)
    (passes : Passes (ApartStep path) now held then_) :
    then_.TaskReads held := by
  induction passes with
  | here =>
    refine ⟨List.mem_singleton_self _, ?_, ?_⟩ <;> intro _ same <;> rw [pending] at same <;>
      cases same
  | step _ step ih => exact ih.step step.1

theorem apartSteps_of_passes (passes : Passes (ApartStep path) now held then_) :
    ApartSteps path now then_ := by
  induction passes with
  | here => exact .refl
  | step _ step ih => exact ih.tail step

theorem steps_of_apartSteps (steps : ApartSteps path now then_) : Steps path now then_ :=
  Relation.ReflTransGen.mono (fun _ _ step => step.1) _ _ steps

end Savers

structure SavedAtTheEnd (place : Place) (calls : List Write) (memory : Memory) (files : Files) :
    Prop where
  /-- Of the writers, only one saves at a time. -/
  exclusive : ∀ now : Savers, Savers.Steps place.path (.start memory files calls .pending) now →
    ∀ {writer other : Nat} {save save' : Saving}, now.writers[writer]? = some (.saving save) →
      now.writers[other]? = some (.saving save') → other = writer
  /-- If no save of a writer met the task's, nothing is lost of what had been applied when the task
  was cancelled. -/
  apart : ∀ cancelled : Savers,
    Savers.ApartSteps place.path (.start memory files calls .pending) cancelled →
    cancelled.task = .pending → ∀ {held : List Memory} {last : Savers} {read : Memory},
      Savers.Passes (Savers.ApartStep place.path) cancelled held last → last.Returned →
        last.task = .ended (some read) → Memory.Among held read ∧
          (LoadsTo last.files place last.memory.contents ∨ LoadsTo last.files place read.contents)
  /-- If all calls had returned when the task was cancelled, nothing is lost at all. -/
  quiet : ∀ cancelled : Savers,
    Savers.Steps place.path (.start memory files calls .pending) cancelled →
    cancelled.task = .pending →
    (∀ writer ∈ cancelled.writers, ∃ result, writer = .returned result) →
      ∀ {last : Savers} {read : Option Memory}, Savers.Steps place.path cancelled last →
        last.task = .ended read →
        LoadsTo last.files place last.memory.contents

/-- Any number of writers, and the task that is cancelled at any moment. -/
theorem saved_at_the_end (sound : memory.IsSound) (hosts : Hosts files place) {calls : List Write}
    (finite : ∀ call ∈ calls, ∀ m ∈ call.metrics, m.value.isFinite) :
    SavedAtTheEnd place calls memory files := by
  have start := Savers.kept_start sound hosts finite .pending nofun nofun
  have quiet : ∀ {cancelled last : Savers} {read : Option Memory}, cancelled.Kept place →
      cancelled.task = .pending →
      (∀ writer ∈ cancelled.writers, ∃ result, writer = .returned result) →
        Savers.Steps place.path cancelled last →
        last.task = .ended read → LoadsTo last.files place last.memory.contents := by
    intro cancelled last read kept pending returned steps ended
    have quiet := (kept.quiet pending returned).steps steps
    exact loadsTo_of_node? quiet.sound (quiet.ended read ended)
  refine ⟨?_, ?_, ?_⟩
  · intro now steps writer other save save' here there
    exact (start.locked.steps steps).same here there
  · intro cancelled steps pending held last read passes returned ended
    have later := Savers.apartSteps_of_passes passes
    have kept := (start.steps steps).steps later
    refine ⟨(Savers.taskReads_of_passes pending passes).ended read ended, ?_⟩
    -- Where there are no writers at all, nothing can change after the cancellation.
    by_cases none : last.writers = []
    · have nobody : cancelled.writers = [] := by
        rw [← List.length_eq_zero_iff, ← Savers.length_writers (Savers.steps_of_apartSteps later),
          none, List.length_nil]
      refine .inl (quiet (start.steps steps) pending ?_ (Savers.steps_of_apartSteps later) ended)
      rw [nobody]
      nofun
    · have settling : last.Settling := fun writer member => .inr (returned writer member)
      rcases kept.settled.last none settling (fun save member => nomatch returned _ member) with
        ⟨_, rfl, shown⟩ | ⟨other, saving | same, shown⟩
      · exact .inl (loadsTo_of_node? kept.locked.sound shown)
      · rw [ended] at saving
        cases saving
      · rw [ended] at same
        cases same
        exact .inr (loadsTo_of_node? (kept.tidy.ended read ended) shown)
  · intro cancelled steps pending returned last read later ended
    exact quiet (start.steps (Savers.apartSteps_of_pending pending steps)) pending returned later
      ended

/-! ### Runs -/

theorem moves_create (top : place.directories = []) (memory : Memory) (hosts : Hosts files place) :
    ∃ next, Hosts next place ∧ Saving.Moves place.path memory (.begun, files)
      (.putting memory (puts place.path (bytes memory.contents)).tail, next) := by
  have ready := hosts.ready (bytes memory.contents)
  have whole :
      steps place.path (bytes memory.contents) = puts place.path (bytes memory.contents) := by
    rw [steps_eq, if_pos top]
  rw [whole] at ready
  obtain ⟨next, creates, advances⟩ := ready.advances
  have reads := moves_read place.path memory files
  rw [whole] at reads
  exact ⟨next, advances.ready.hosts, reads.tail (.step creates)⟩

namespace Savers

variable {now : Savers}

theorem steps_to_read (pending : now.task = .pending) (path : String) :
    Steps path now
      { now with
        task := .saving (.putting now.memory (steps path (bytes now.memory.contents))) } := by
  have cancelled : Steps path now { now with task := .saving .begun } := .single (.cancel pending)
  exact cancelled.trans
    (@steps_of_closing_moves path .begun { now with task := .saving .begun } rfl _
      (moves_read path now.memory now.files))

theorem steps_to_land {read : Memory} {rest : List Snapshot.Step}
    (saving : now.task = .saving (.putting read rest)) (path : String) :
    Steps path now { now with files := (runSteps rest now.files).2, task := .ended (some read) } :=
  (steps_of_closing_moves saving (moves_put read rest now.files)).tail (.finish rfl)

end Savers

theorem loadsTo_unique {contents other : Contents} (loads : LoadsTo files place contents)
    (loadsOther : LoadsTo files place other) : contents = other := by
  obtain ⟨restored, loads, rfl⟩ := loads
  obtain ⟨again, loadsOther, rfl⟩ := loadsOther
  rw [loads] at loadsOther
  cases congrArg Prod.snd loadsOther
  rfl

/-- A call, and after it the task. -/
theorem saved_at_the_end_in_turn :
    Memory.IsSound {} ∧ Hosts {} topFile ∧
    (∀ call ∈ [counted], ∀ m ∈ call.metrics, m.value.isFinite) ∧
      ∃ last, Savers.Steps topFile.path (.start {} {} [counted] .pending) last ∧ last.Returned ∧
        (∃ read, last.task = .ended (some read)) ∧ LoadsTo last.files topFile last.memory.contents ∧
          last.memory.counters.get? "PollCount" = some 1 := by
  have finite : ∀ call ∈ [counted], ∀ m ∈ call.metrics, m.value.isFinite := by decide
  have atTheEnd := saved_at_the_end .empty (hosts_nothing topFile) finite
  have sums : (Memory.storage.write counted {}).2.counters.get? "PollCount" = some 1 := by
    decide +kernel
  rcases one : Memory.storage.write counted {} with ⟨fault | ⟨⟩, first⟩
  · cases one
  rw [one] at sums
  rcases saves : save topFile.path (.ok first.contents) {} with ⟨count, files⟩
  have counts :=
    @Savers.steps_write topFile.path (.start {} {} [counted] .pending) 0 counted rfl rfl _ _
    (write_of_ok one saves)
  have returned : ∀ writer ∈ [Writer.returned (.ok ())], writer = .returned (.ok ()) := by simp
  have closes :=
    (@Savers.steps_to_read ⟨first, files, none, [.returned (.ok ())], .pending⟩ rfl
      topFile.path).trans
    (Savers.steps_to_land rfl topFile.path)
  refine ⟨.empty, hosts_nothing _, finite, _, counts.trans closes, returned, ⟨_, rfl⟩, ?_, sums⟩
  exact atTheEnd.quiet _ counts rfl (fun writer member => ⟨_, returned writer member⟩) closes rfl

/-- A call while the task is at its save: both are under way at once; and the task, which has read
the store before the call, moves its file last. -/
theorem saves_meet_and_are_lost :
    (¬ ∀ now, Savers.Steps topFile.path (.start {} {} [counted] .pending) now →
      now.Apart topFile.path) ∧
    ¬ ∀ last read, Savers.Steps topFile.path (.start {} {} [counted] .pending) last →
      last.Returned →
      last.task = .ended read → LoadsTo last.files topFile last.memory.contents := by
  have total : (Memory.storage.write counted {}).2.contents.get? ⟨"PollCount", .counter⟩ =
      some (.counter 1) := by
    decide +kernel
  rcases one : Memory.storage.write counted {} with ⟨fault | ⟨⟩, first⟩
  · cases one
  rw [one] at total
  constructor
  · intro apart
    obtain ⟨files, hosts, closing⟩ := @moves_create topFile {} rfl {} (hosts_nothing topFile)
    obtain ⟨files', -, saving⟩ := moves_create rfl first hosts
    have begun : Savers.Steps topFile.path (.start {} {} [counted] .pending)
        ⟨{}, {}, none, [.applying counted.metrics], .saving .begun⟩ := .single (.cancel rfl)
    have creates := begun.trans (Savers.steps_of_closing_moves rfl closing)
    have applied : Memory.update ⟨"PollCount", .counter 1⟩ {} = (.ok (), first) := one
    have applies := creates.tail (@Savers.Step.apply _ _ 0 _ [] first rfl applied)
    have locks := applies.tail (@Savers.Step.lock _ _ 0 rfl rfl)
    have both := locks.trans (@Savers.steps_of_moves topFile.path .begun _ 0 rfl _ saving)
    have underway : ∀ read : Memory,
        (Saving.putting read (puts topFile.path (bytes read.contents)).tail).IsUnderway
          topFile.path := by
      intro read
      simp [Saving.IsUnderway, puts]
    exact apart _ both _ _ (List.mem_singleton_self _) rfl ⟨underway first, underway {}⟩
  · intro loads
    obtain ⟨files, saves, hosts, -⟩ := save_ok (hosts_nothing topFile) first.contents
    obtain ⟨files', savesAgain, -, landed⟩ := save_ok hosts (Memory.contents {})
    rw [save_eq, Prod.mk.injEq] at savesAgain
    have reads := @Savers.steps_to_read (.start {} {} [counted] .pending) rfl topFile.path
    have counts := reads.trans (@Savers.steps_write topFile.path
      ⟨{}, {}, none, [.applying counted.metrics],
        .saving (.putting {} (steps topFile.path (bytes (Memory.contents {}))))⟩
      0 counted rfl rfl _ _ (write_of_ok one saves))
    have lands := counts.trans (Savers.steps_to_land rfl topFile.path)
    rw [savesAgain.2] at lands
    have returned : ∀ writer ∈ [Writer.returned (.ok ())], writer = .returned (.ok ()) := by simp
    have older := loadsTo_of_node? .empty landed
    have newer := loads _ (some {}) lands returned rfl
    rw [← loadsTo_unique older newer] at total
    cases total

end Telemetry.Snapshot
