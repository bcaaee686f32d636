import Mathlib.Logic.Relation
import Telemetry.Proofs.Snapshot.Through

/-!
Writers that share a store in memory and its snapshot, and a task that saves it once more when it is
cancelled, in every order of their steps. A writer saves under a lock, the task without it. Main
statements: the saves of writers never meet; and as long as no two saves are under way at once, the
file shows what the save read that was the last to land.
-/
namespace Telemetry.Snapshot

/-! ### Steps -/

/-- A save between two steps. Gauges and counters are read one after the other. -/
inductive Saving where
  | begun
  | half (gauges : Table String Binary64)
  | putting (read : Memory) (rest : List Step)

/-- What a save does next, and the files after it. One that fails gives up. -/
inductive Saving.Move (path : String) (memory : Memory) (files : Files) :
    Saving → Saving → Files → Prop
  | readGauges : Move path memory files .begun (.half memory.gauges) files
  | readCounters (gauges : Table String Binary64) :
      Move path memory files (.half gauges)
        (.putting ⟨gauges, memory.counters⟩
          (steps path (bytes (Memory.contents ⟨gauges, memory.counters⟩)))) files
  | step {read : Memory} {step : Step} {rest : List Step} {next : Files}
      (run : step.run files = .ok next) :
      Move path memory files (.putting read (step :: rest)) (.putting read rest) next
  | giveUp {read : Memory} {step : Step} {rest : List Step} {fault : Files.Fault}
      (failed : step.run files = .error fault) :
      Move path memory files (.putting read (step :: rest)) (.putting read []) files

def Saving.IsUnderway (path : String) : Saving → Prop
  | .putting _ rest => .create (temporary path) ∉ rest ∧ rest ≠ []
  | _ => False

/-- A call that writes to the store: it applies its metrics, saves the store under the lock, and
returns. -/
inductive Writer where
  | applying (rest : List Metric)
  | saving (save : Saving)
  | returned (result : Except StoreFault Unit)

/-- The task: it waits to be cancelled, then saves. What it read is kept; there is none if there is
no task. -/
inductive Closing where
  | pending
  | saving (save : Saving)
  | ended (read : Option Memory)

structure Savers where
  memory : Memory
  files : Files
  /-- The writer that has the lock. -/
  lock : Option Nat := none
  writers : List Writer
  task : Closing

namespace Savers

def start (memory : Memory) (files : Files) (calls : List Write) (task : Closing) : Savers :=
  { memory, files, writers := calls.map fun call => .applying call.metrics, task }

inductive Step (path : String) (now : Savers) : Savers → Prop
  | apply {writer : Nat} {m : Metric} {ms : List Metric} {memory : Memory}
      (here : now.writers[writer]? = some (.applying (m :: ms)))
      (applied : Memory.update m now.memory = (.ok (), memory)) :
      Step path now { now with memory, writers := now.writers.set writer (.applying ms) }
  | refuse {writer : Nat} {m : Metric} {ms : List Metric} {memory : Memory} {fault : StoreFault}
      (here : now.writers[writer]? = some (.applying (m :: ms)))
      (refused : Memory.update m now.memory = (.error fault, memory)) :
      Step path now
        { now with memory, writers := now.writers.set writer (.returned (.error fault)) }
  | lock {writer : Nat} (here : now.writers[writer]? = some (.applying []))
      (free : now.lock = none) :
      Step path now
        { now with lock := some writer, writers := now.writers.set writer (.saving .begun) }
  | save {writer : Nat} {save next : Saving} {files : Files}
      (here : now.writers[writer]? = some (.saving save))
      (move : save.Move path now.memory now.files next files) :
      Step path now { now with files, writers := now.writers.set writer (.saving next) }
  | unlock {writer : Nat} {read : Memory}
      (here : now.writers[writer]? = some (.saving (.putting read []))) :
      Step path now
        { now with lock := none, writers := now.writers.set writer (.returned (.ok ())) }
  | cancel (pending : now.task = .pending) : Step path now { now with task := .saving .begun }
  | close {save next : Saving} {files : Files} (here : now.task = .saving save)
      (move : save.Move path now.memory now.files next files) :
      Step path now { now with files, task := .saving next }
  | finish {read : Memory} (here : now.task = .saving (.putting read [])) :
      Step path now { now with task := .ended (some read) }

abbrev Steps (path : String) : Savers → Savers → Prop := Relation.ReflTransGen (Step path)

/-- The task and a writer are not both between creating the file beside and moving it. -/
def Apart (path : String) (now : Savers) : Prop :=
  ∀ save other, .saving save ∈ now.writers → now.task = .saving other →
    ¬ (save.IsUnderway path ∧ other.IsUnderway path)

/-- A step after which the task's save and a writer's are still apart. -/
def ApartStep (path : String) (now next : Savers) : Prop := Step path now next ∧ next.Apart path

abbrev ApartSteps (path : String) : Savers → Savers → Prop := Relation.ReflTransGen (ApartStep path)

def Returned (now : Savers) : Prop := ∀ writer ∈ now.writers, writer = .returned (.ok ())

def Shows (place : Place) (now : Savers) (memory : Memory) : Prop :=
  now.files.node? place.path = some (.file (bytes memory.contents))

def TaskShown (place : Place) (now : Savers) : Prop :=
  ∃ read, (now.task = .saving (.putting read []) ∨ now.task = .ended (some read)) ∧
    now.Shows place read

end Savers

/-! ### A save -/

def Saving.IsReady (place : Place) (files : Files) : Saving → Prop
  | .begun => True
  | .half gauges => ∃ memory : Memory, memory.IsSound ∧ memory.gauges = gauges
  | .putting read rest => read.IsSound ∧ Ready place (bytes read.contents) files rest

variable {place : Place} {files next : Files} {memory : Memory} {save after : Saving}

structure Moved (place : Place) (files : Files) (save after : Saving) (next : Files) : Prop where
  hosts : Hosts next place
  ready : after.IsReady place next
  /-- The file is the one that was there, or has all that was read. -/
  target : (∀ read, after ≠ .putting read []) ∧ next.node? place.path = files.node? place.path ∨
    ∃ read, after = .putting read [] ∧ next.node? place.path = some (.file (bytes read.contents))
  beside : ¬ save.IsUnderway place.path → ¬ after.IsUnderway place.path →
    next.node? (temporary place.path) = files.node? (temporary place.path)

theorem Saving.Move.moved (move : save.Move place.path memory files after next)
    (hosts : Hosts files place) (sound : memory.IsSound) (ready : save.IsReady place files) :
    Moved place files save after next := by
  cases move with
  | readGauges => exact ⟨hosts, ⟨memory, sound, rfl⟩, .inl ⟨nofun, rfl⟩, fun _ _ => rfl⟩
  | readCounters gauges =>
    obtain ⟨before, soundBefore, rfl⟩ := ready
    refine ⟨hosts, ⟨soundBefore.mix sound, hosts.ready _⟩, .inl ⟨?_, rfl⟩, fun _ _ => rfl⟩
    intro read same
    simp [steps] at same
  | @step read step rest _ run =>
    obtain ⟨soundRead, ready⟩ := ready
    obtain ⟨_, runs, advances⟩ := ready.advances
    cases run.symm.trans runs
    refine ⟨advances.ready.hosts, ⟨soundRead, advances.ready⟩, ?_, ?_⟩
    · by_cases last : rest = []
      · subst last
        exact .inr ⟨read, rfl, advances.target⟩
      · refine .inl ⟨?_, ?_⟩
        · rintro other ⟨⟩
          exact last rfl
        · rw [advances.target, if_neg last]
    · intro before afterwards
      -- Steps that touch this file begin or end under way.
      apply advances.beside
      cases comes_of_suffix ready.part with
      | directories some => simp [puts]
      | create => exact absurd ⟨by simp [puts], by simp [puts]⟩ afterwards
      | write => exact absurd ⟨by simp [puts], by simp⟩ before
      | sync => exact absurd ⟨by simp [puts], by simp⟩ before
      | rename => exact absurd ⟨by simp, by simp⟩ before
  | @giveUp read step rest fault failed =>
    obtain ⟨-, ready⟩ := ready
    obtain ⟨_, runs, -⟩ := ready.advances
    rw [failed] at runs
    cases runs

theorem uncreated_of_unwritten {bytes : Bytes} {rest : List Step}
    (part : rest <:+ steps place.path bytes)
    (unwritten : .write (temporary place.path) bytes ∉ rest) :
    .create (temporary place.path) ∉ rest := by
  cases rest with
  | nil => exact List.not_mem_nil
  | cons step rest =>
    cases comes_of_suffix part with
    | directories some => simp [puts] at unwritten
    | create => simp [puts] at unwritten
    | write => simp at unwritten
    | sync => simp [puts]
    | rename => simp

theorem Saving.IsReady.keep {other : Saving} (ready : other.IsReady place files)
    (moved : Moved place files save after next)
    (before : ¬ (save.IsUnderway place.path ∧ other.IsUnderway place.path))
    (afterwards : ¬ (after.IsUnderway place.path ∧ other.IsUnderway place.path)) :
    other.IsReady place next := by
  cases other with
  | begun => trivial
  | half gauges => exact ready
  | putting read rest =>
    obtain ⟨sound, ready⟩ := ready
    refine ⟨sound, moved.hosts, ready.part, ?_⟩
    intro unwritten some
    have underway : (Saving.putting read rest).IsUnderway place.path :=
      ⟨uncreated_of_unwritten ready.part unwritten, some⟩
    rw [moved.beside (fun save => before ⟨save, underway⟩)
      (fun after => afterwards ⟨after, underway⟩)]
    exact ready.filled unwritten some

def Saving.IsCurrent (memory : Memory) : Saving → Prop
  | .begun => True
  | .half gauges => gauges = memory.gauges
  | .putting read _ => read = memory

theorem Saving.Move.isCurrent (move : save.Move place.path memory files after next)
    (current : save.IsCurrent memory) : after.IsCurrent memory := by
  cases move with
  | readGauges => rfl
  | readCounters gauges =>
    cases current
    rfl
  | step run => exact current
  | giveUp failed => exact current

namespace Savers

variable {path : String} {now then_ : Savers}

/-! ### The lock -/

structure Locked (now : Savers) : Prop where
  holder : ∀ writer save, now.writers[writer]? = some (.saving save) → now.lock = some writer
  sound : now.memory.IsSound
  finite : ∀ ms, .applying ms ∈ now.writers → ∀ m ∈ ms, m.value.isFinite

theorem getElem?_set_eq_saving {writers : List Writer} {writer other : Nat} {new : Writer}
    {save : Saving} (there : (writers.set writer new)[other]? = some (.saving save)) :
    other = writer ∧ new = .saving save ∨ other ≠ writer ∧
    writers[other]? = some (.saving save) := by
  by_cases same : other = writer
  · subst same
    have bound := (List.getElem?_eq_some_iff.1 there).1
    rw [List.length_set] at bound
    rw [List.getElem?_set_self bound] at there
    exact .inl ⟨rfl, Option.some.inj there⟩
  · rw [List.getElem?_set_ne (Ne.symm same)] at there
    exact .inr ⟨same, there⟩

theorem mem_set_self {writers : List Writer} {writer : Nat} {old : Writer}
    (here : writers[writer]? = some old) (new : Writer) : new ∈ writers.set writer new :=
  List.mem_set (List.getElem?_eq_some_iff.1 here).1 new

/-- Only one writer saves at a time. -/
theorem Locked.same (locked : now.Locked) {writer other : Nat} {save save' : Saving}
    (here : now.writers[writer]? = some (.saving save))
    (there : now.writers[other]? = some (.saving save')) :
    other = writer := by
  have one := locked.holder writer save here
  rw [locked.holder other save' there] at one
  exact Option.some.inj one

theorem Locked.unique (locked : now.Locked) (here : .saving save ∈ now.writers) {other : Saving}
    (there : .saving other ∈ now.writers) : other = save := by
  obtain ⟨writer, here⟩ := List.mem_iff_getElem?.1 here
  obtain ⟨holder, there⟩ := List.mem_iff_getElem?.1 there
  cases locked.same here there
  rw [here] at there
  cases there
  rfl

theorem Locked.eq_of_mem_set (locked : now.Locked) {writer : Nat} {new : Writer} {other : Saving}
    (here : now.writers[writer]? = some (.saving save))
    (there : .saving other ∈ now.writers.set writer new) :
    new = .saving other := by
  obtain ⟨holder, there⟩ := List.mem_iff_getElem?.1 there
  rcases getElem?_set_eq_saving there with ⟨-, same⟩ | ⟨differ, there⟩
  · exact same
  · exact absurd (locked.same here there) differ

theorem locked_start (sound : memory.IsSound) {calls : List Write}
    (finite : ∀ call ∈ calls, ∀ m ∈ call.metrics, m.value.isFinite) (files : Files)
    (task : Closing) :
    (start memory files calls task).Locked where
  holder := by
    intro writer save here
    obtain ⟨call, -, same⟩ := List.mem_map.1 (List.mem_of_getElem? here)
    cases same
  sound := sound
  finite := by
    intro ms member
    obtain ⟨call, inside, same⟩ := List.mem_map.1 member
    cases same
    exact finite call inside

theorem Locked.holder_set (locked : now.Locked) {writer : Nat} {new : Writer}
    (outside : ∀ save, new ≠ .saving save) :
    ∀ other save, (now.writers.set writer new)[other]? = some (.saving save) →
      now.lock = some other := by
  intro other save there
  rcases getElem?_set_eq_saving there with ⟨-, same⟩ | ⟨-, there⟩
  · exact absurd same (outside save)
  · exact locked.holder other save there

theorem Locked.finite_set (locked : now.Locked) {writer : Nat} {new : Writer}
    (finite : ∀ ms, new = .applying ms → ∀ m ∈ ms, m.value.isFinite) :
    ∀ ms, .applying ms ∈ now.writers.set writer new → ∀ m ∈ ms, m.value.isFinite := by
  intro ms member
  rcases List.mem_or_eq_of_mem_set member with there | same
  · exact locked.finite ms there
  · exact finite ms same.symm

theorem Locked.step (locked : now.Locked) (step : Step path now then_) : then_.Locked := by
  cases step with
  | @apply writer m ms memory here applied =>
    have finite := locked.finite _ (List.mem_of_getElem? here)
    simp only [List.forall_mem_cons] at finite
    have sound := locked.sound.update finite.1
    rw [applied] at sound
    refine ⟨locked.holder_set nofun, sound, locked.finite_set ?_⟩
    rintro _ ⟨⟩
    exact finite.2
  | @refuse writer m ms memory fault here refused =>
    have finite := locked.finite _ (List.mem_of_getElem? here)
    simp only [List.forall_mem_cons] at finite
    have sound := locked.sound.update finite.1
    rw [refused] at sound
    exact ⟨locked.holder_set nofun, sound, locked.finite_set nofun⟩
  | lock here free =>
    refine ⟨?_, locked.sound, locked.finite_set nofun⟩
    intro other save there
    rcases getElem?_set_eq_saving there with ⟨same, -⟩ | ⟨-, there⟩
    · rw [same]
    · have held := locked.holder other save there
      rw [free] at held
      cases held
  | save here move =>
    refine ⟨?_, locked.sound, locked.finite_set nofun⟩
    intro other save there
    rcases getElem?_set_eq_saving there with ⟨same, -⟩ | ⟨-, there⟩
    · rw [same]
      exact locked.holder _ _ here
    · exact locked.holder other save there
  | unlock here =>
    refine ⟨?_, locked.sound, locked.finite_set nofun⟩
    intro other save there
    cases locked.eq_of_mem_set here (List.mem_of_getElem? there)
  | cancel | close | finish => exact ⟨locked.holder, locked.sound, locked.finite⟩

theorem Locked.steps (locked : now.Locked) (steps : Steps path now then_) : then_.Locked := by
  induction steps with
  | refl => exact locked
  | tail _ step ih => exact ih.step step

/-! ### The files -/

/-- What holds as long as the task's save and those of the writers stay apart. -/
structure Tidy (place : Place) (now : Savers) : Prop where
  hosts : Hosts now.files place
  writer : ∀ save, .saving save ∈ now.writers → save.IsReady place now.files
  task : ∀ save, now.task = .saving save → save.IsReady place now.files
  ended : ∀ read, now.task = .ended (some read) → read.IsSound

theorem tidy_start (hosts : Hosts files place) (memory : Memory) (calls : List Write)
    {task : Closing} (idle : ∀ save, task ≠ .saving save)
    (fresh : ∀ read, task ≠ .ended (some read)) :
    (start memory files calls task).Tidy place where
  hosts := hosts
  writer := by
    intro save member
    obtain ⟨call, -, same⟩ := List.mem_map.1 member
    cases same
  task save here := absurd here (idle save)
  ended read here := absurd here (fresh read)

theorem Tidy.writer_set (tidy : now.Tidy place) {writer : Nat} {new : Writer}
    (outside : ∀ save, new ≠ .saving save) :
    ∀ save, .saving save ∈ now.writers.set writer new → save.IsReady place now.files := by
  intro save member
  rcases List.mem_or_eq_of_mem_set member with there | same
  · exact tidy.writer save there
  · exact absurd same.symm (outside save)

theorem Tidy.step (tidy : now.Tidy place) (locked : now.Locked) (step : Step place.path now then_)
    (apart : now.Apart place.path) (stillApart : then_.Apart place.path) : then_.Tidy place := by
  cases step with
  | apply | refuse | unlock => exact ⟨tidy.hosts, tidy.writer_set nofun, tidy.task, tidy.ended⟩
  | lock here free =>
    refine ⟨tidy.hosts, ?_, tidy.task, tidy.ended⟩
    intro save member
    rcases List.mem_or_eq_of_mem_set member with there | same
    · exact tidy.writer save there
    · cases same
      trivial
  | @save writer save after files here move =>
    have there := List.mem_of_getElem? here
    have moved := move.moved tidy.hosts locked.sound (tidy.writer save there)
    refine ⟨moved.hosts, ?_, ?_, tidy.ended⟩
    -- The lock keeps the other writers from saving, but not the task.
    · intro other member
      cases locked.eq_of_mem_set here member
      exact moved.ready
    · intro other closing
      refine (tidy.task other closing).keep moved (apart save other there closing) ?_
      exact stillApart after other (mem_set_self here _) closing
  | cancel pending =>
    refine ⟨tidy.hosts, tidy.writer, ?_, nofun⟩
    rintro save ⟨⟩
    trivial
  | @close save after files here move =>
    have moved := move.moved tidy.hosts locked.sound (tidy.task save here)
    refine ⟨moved.hosts, ?_, ?_, nofun⟩
    · intro other member
      refine (tidy.writer other member).keep moved ?_ ?_
      · rw [and_comm]
        exact apart other save member here
      · rw [and_comm]
        exact stillApart other after member rfl
    · rintro save ⟨⟩
      exact moved.ready
  | @finish read here =>
    refine ⟨tidy.hosts, tidy.writer, nofun, ?_⟩
    rintro other ⟨⟩
    exact (tidy.task _ here).1

def Has (place : Place) (now : Savers) (P : Memory → Prop) : Prop :=
  (∃ read, P read ∧ now.Shows place read) ∨ now.TaskShown place

theorem Has.step {P : Memory → Prop} (has : now.Has place P) (tidy : now.Tidy place)
    (locked : now.Locked) (step : Step place.path now then_)
    (landing : ∀ read, .saving (.putting read []) ∈ then_.writers → P read) :
    then_.Has place P := by
  cases step with
  | apply | refuse | lock | unlock => exact has
  | @save writer save after files here move =>
    rcases (move.moved tidy.hosts locked.sound
        (tidy.writer save (List.mem_of_getElem? here))).target with
      ⟨-, same⟩ | ⟨read, rfl, landed⟩
    · simp only [Has, Shows, TaskShown, same]
      exact has
    · exact .inl ⟨read, landing read (mem_set_self here _), landed⟩
  | cancel pending =>
    rcases has with shown | ⟨read, saving | ended, -⟩
    · exact .inl shown
    · rw [pending] at saving
      cases saving
    · rw [pending] at ended
      cases ended
  | @close save after files here move =>
    rcases (move.moved tidy.hosts locked.sound (tidy.task save here)).target with
      ⟨-, same⟩ | ⟨read, rfl, landed⟩
    · rcases has with ⟨read, holds, shown⟩ | ⟨read, saving | ended, -⟩
      · exact .inl ⟨read, holds, same.trans shown⟩
      · -- A task whose save is in the file has no move left.
        rw [here] at saving
        cases saving
        cases move
      · rw [here] at ended
        cases ended
    · exact .inr ⟨read, .inl rfl, landed⟩
  | finish here =>
    rcases has with shown | ⟨read, saving | ended, shown⟩
    · exact .inl shown
    · rw [here] at saving
      cases saving
      exact .inr ⟨_, .inr rfl, shown⟩
    · rw [here] at ended
      cases ended

theorem Has.mono {P Q : Memory → Prop} (has : now.Has place P) (weaker : ∀ read, P read → Q read) :
    now.Has place Q :=
  has.imp_left fun ⟨read, holds, shown⟩ => ⟨read, weaker read holds, shown⟩

def Settling (now : Savers) : Prop :=
  ∀ writer ∈ now.writers, (∃ save, writer = .saving save) ∨ writer = .returned (.ok ())

structure Settled (place : Place) (now : Savers) : Prop where
  /-- A writer that is about to let go of the lock has its save in the file. -/
  landed : ∀ read, .saving (.putting read []) ∈ now.writers → now.Has place (· = read)
  current : now.Settling → ∀ save, .saving save ∈ now.writers → save.IsCurrent now.memory
  /-- When the last one lets go of the lock, the file has what the store lists. -/
  last : now.writers ≠ [] → now.Settling → (∀ save, .saving save ∉ now.writers) →
    now.Has place (· = now.memory)

theorem settled_start (place : Place) (memory : Memory) (files : Files) (calls : List Write)
    (task : Closing) :
    (start memory files calls task).Settled place := by
  have applying : ∀ writer ∈ (start memory files calls task).writers, ∃ ms, writer =
      .applying ms := by
    intro writer member
    obtain ⟨call, -, rfl⟩ := List.mem_map.1 member
    exact ⟨_, rfl⟩
  refine ⟨?_, ?_, ?_⟩
  · intro read member
    obtain ⟨ms, same⟩ := applying _ member
    cases same
  · intro _ save member
    obtain ⟨ms, same⟩ := applying _ member
    cases same
  · intro nonempty settling
    obtain ⟨writer, member⟩ := List.exists_mem_of_ne_nil _ nonempty
    obtain ⟨ms, rfl⟩ := applying _ member
    obtain ⟨save, same⟩ | same := settling _ member <;> cases same

theorem Settled.landed_step (settled : now.Settled place) (tidy : now.Tidy place)
    (locked : now.Locked) (step : Step place.path now then_) :
    ∀ read, .saving (.putting read []) ∈ then_.writers → then_.Has place (· = read) := by
  intro read member
  -- No other writer's save can have replaced the file meanwhile, for only one saves at a time.
  have only : ∀ other, .saving (.putting other []) ∈ then_.writers → other = read := by
    intro other there
    cases (locked.step step).unique member there
    rfl
  have before : .saving (.putting read []) ∈ now.writers → then_.Has place (· = read) :=
    fun member => (settled.landed read member).step tidy locked step only
  cases step with
  | apply | refuse | lock | unlock =>
    exact before ((List.mem_or_eq_of_mem_set member).resolve_right nofun)
  | save here move =>
    cases locked.eq_of_mem_set here member
    rcases (move.moved tidy.hosts locked.sound
        (tidy.writer _ (List.mem_of_getElem? here))).target with
      ⟨unlanded, -⟩ | ⟨other, same, landed⟩
    · exact absurd rfl (unlanded read)
    · cases same
      exact .inl ⟨read, rfl, landed⟩
  | cancel | close | finish => exact before member

theorem forall_of_set {P : Writer → Prop} {writers : List Writer} {writer : Nat} {old new : Writer}
    (here : writers[writer]? = some old) (holds : P old)
    (others : ∀ other ∈ writers.set writer new, P other) :
    ∀ other ∈ writers, P other := by
  intro other member
  obtain ⟨index, there⟩ := List.mem_iff_getElem?.1 member
  by_cases same : writer = index
  · subst same
    rw [here] at there
    cases there
    exact holds
  · rw [← List.getElem?_set_ne same] at there
    exact others other (List.mem_of_getElem? there)

theorem settling_of_set {writer : Nat} {new : Writer} (settling : then_.Settling)
    (set : then_.writers = now.writers.set writer new)
    (here : now.writers[writer]? = some (.saving save)) :
    now.Settling := by
  rw [Settling, set] at settling
  exact forall_of_set here (.inl ⟨save, rfl⟩) settling

theorem not_settling_of_set {writer : Nat} {old new : Writer}
    (set : then_.writers = now.writers.set writer new) (here : now.writers[writer]? = some old)
    (busy : ∀ save, new ≠ .saving save) (unreturned : new ≠ .returned (.ok ())) :
    ¬ then_.Settling := by
  intro settling
  obtain ⟨save, same⟩ | same := settling new (set ▸ mem_set_self here new)
  · exact busy save same
  · exact unreturned same

theorem Settled.step (settled : now.Settled place) (tidy : now.Tidy place) (locked : now.Locked)
    (step : Step place.path now then_) : then_.Settled place := by
  have landed := settled.landed_step tidy locked step
  have unsettled : ¬ then_.Settling → then_.Settled place :=
    fun unsettled =>
      ⟨landed, fun settling => absurd settling unsettled, fun _ settling =>
        absurd settling unsettled⟩
  -- Steps of the task change neither the writers nor the store.
  have aside : then_.writers = now.writers → then_.memory = now.memory → then_.Settled place := by
    intro writers memory
    refine ⟨landed, ?_, ?_⟩
    · rw [Settling, writers, memory]
      exact settled.current
    · rw [Settling, writers, memory]
      intro nonempty settling unsaved
      refine (settled.last nonempty settling unsaved).step tidy locked step fun read member => ?_
      rw [writers] at member
      exact absurd member (unsaved _)
  cases step with
  | apply here | refuse here => exact unsettled (not_settling_of_set rfl here nofun nofun)
  | lock here free =>
    refine ⟨landed, ?_, fun _ _ unsaved => absurd (mem_set_self here _) (unsaved .begun)⟩
    intro _ save member
    obtain ⟨other, there⟩ := List.mem_iff_getElem?.1 member
    rcases getElem?_set_eq_saving there with ⟨-, same⟩ | ⟨-, there⟩
    · cases same
      trivial
    · have held := locked.holder other save there
      rw [free] at held
      cases held
  | save here move =>
    refine ⟨landed, ?_, fun _ _ unsaved => absurd (mem_set_self here _) (unsaved _)⟩
    intro settling other member
    cases locked.eq_of_mem_set here member
    exact move.isCurrent
      (settled.current (settling_of_set settling rfl here) _ (List.mem_of_getElem? here))
  | unlock here =>
    refine ⟨landed, ?_, ?_⟩
    · intro _ other member
      cases locked.eq_of_mem_set here member
    · intro _ settling _
      -- Nobody is applying a write, so what this save has read is still what the store lists.
      have there := List.mem_of_getElem? here
      have current := settled.current (settling_of_set settling rfl here) _ there
      cases current
      exact settled.landed _ there
  | cancel | close | finish => exact aside rfl rfl

/-! ### Runs in which saves stay apart -/

structure Kept (place : Place) (now : Savers) : Prop where
  locked : now.Locked
  tidy : now.Tidy place
  settled : now.Settled place
  apart : now.Apart place.path

theorem Kept.step (kept : now.Kept place) (step : Step place.path now then_)
    (apart : then_.Apart place.path) :
    then_.Kept place where
  locked := kept.locked.step step
  tidy := kept.tidy.step kept.locked step kept.apart apart
  settled := kept.settled.step kept.tidy kept.locked step
  apart := apart

theorem Kept.steps (kept : now.Kept place) (steps : ApartSteps place.path now then_) :
    then_.Kept place := by
  induction steps with
  | refl => exact kept
  | tail _ step ih => exact ih.step step.1 step.2

end Savers
end Telemetry.Snapshot
