import Mathlib.Logic.Relation
import Telemetry.Proofs.Snapshot.Restored
import Telemetry.Proofs.Snapshot.Saved
import Telemetry.Snapshot.Saver

/-!
The task that saves a store in memory at every tick of its timer and once more when it is cancelled,
in every order of updates, ticks, the cancellation and the steps of its saves, of which any may
fail. Main statement: the file is the one from before, or all that the last save to succeed has
read; a save reads every series as the store held it meanwhile, and none older than the save before
it did; there is one save for every tick and one after the cancellation; and that one misses nothing
with which the store had been updated by then.
-/
namespace Telemetry.Snapshot

/-! ### Steps -/

/-- What a save has read of a store: the gauges after so many updates, and the counters after so
many. -/
structure Reading where
  closing : Bool
  gaugesAt : Nat
  countersAt : Nat
  memory : Memory

structure Attempt extends Reading where
  saved : Bool

/-- Where the task is. The save that follows the cancellation is the closing one. -/
inductive Phase where
  | starting
  | waiting
  | opening (closing : Bool)
  | half (closing : Bool) (gaugesAt : Nat) (gauges : Table String Binary64)
  | putting (reading : Reading) (rest : List Step)
  | ended

/-- After a save the task waits again, unless it was the closing one. -/
def Phase.after (closing : Bool) : Phase := if closing then .ended else .waiting

theorem Phase.after_ne {phase : Phase} (closing : Bool) (notWaiting : phase ≠ .waiting)
    (notEnded : phase ≠ .ended) :
    Phase.after closing ≠ phase := by
  cases closing with
  | false => exact notWaiting.symm
  | true => exact notEnded.symm

def Phase.reading : Phase → List Reading
  | .putting reading _ => [reading]
  | .starting | .waiting | .opening _ | .half .. | .ended => []

def Phase.begun : Phase → List Bool
  | .opening closing | .half closing .. => [closing]
  | .putting reading _ => [reading.closing]
  | .starting | .waiting | .ended => []

def Phase.isClosing : Phase → Bool
  | .opening closing | .half closing .. => closing
  | .putting reading _ => reading.closing
  | .starting | .waiting => false
  | .ended => true

/-- The task and the store that it saves, and what has happened so far. -/
structure Periodic where
  memory : Memory
  files : Files
  phase : Phase
  /-- What the store has been updated with. -/
  brought : List Metric := []
  /-- How many updates there had been when the task was cancelled. -/
  cancelled : Option Nat := none
  ticks : Nat := 0
  made : List Attempt := []

namespace Periodic

/-- A timer ticks for the first time at once, and nothing is saved then. Without an interval there
is no timer. -/
def start (interval : Nat) (memory : Memory) (files : Files) : Periodic :=
  { memory, files, phase := if interval = 0 then .waiting else .starting }

/-- What all saves have read, those that failed and the one under way included. -/
def readings (now : Periodic) : List Reading := now.made.map (·.toReading) ++ now.phase.reading

def update (now : Periodic) (m : Metric) : Periodic :=
  { now with memory := (Memory.update m now.memory).2, brought := now.brought ++ [m] }

/-- A save has read the store, and goes on to put it into the file. -/
def read (path : String) (now : Periodic) (reading : Reading) : Periodic :=
  { now with phase := .putting reading (steps path (bytes reading.memory.contents)) }

def finish (now : Periodic) (reading : Reading) (saved : Bool) (files : Files) : Periodic :=
  { now with files, phase := .after reading.closing, made := now.made ++ [⟨reading, saved⟩] }

/-- What can happen next. While it waits, a task that has been cancelled may still take a tick. -/
inductive Step (path : String) (interval : Nat) (now : Periodic) : Periodic → Prop
  | update (m : Metric) : Step path interval now (now.update m)
  | cancel (live : now.cancelled = none) :
      Step path interval now { now with cancelled := some now.brought.length }
  | firstTick (here : now.phase = .starting) : Step path interval now { now with phase := .waiting }
  | tick (here : now.phase = .waiting) (timed : interval ≠ 0) :
      Step path interval now { now with phase := .opening false, ticks := now.ticks + 1 }
  | leave (here : now.phase = .waiting) (cancelled : now.cancelled ≠ none) :
      Step path interval now { now with phase := .opening true }
  | readGauges {closing : Bool} (here : now.phase = .opening closing) :
      Step path interval now
        { now with phase := .half closing now.brought.length now.memory.gauges }
  | readCounters {closing : Bool} {gaugesAt : Nat} {gauges : Table String Binary64}
      (here : now.phase = .half closing gaugesAt gauges) :
      Step path interval now
        (now.read path ⟨closing, gaugesAt, now.brought.length, ⟨gauges, now.memory.counters⟩⟩)
  | put {reading : Reading} {step : Snapshot.Step} {rest : List Snapshot.Step} {files : Files}
      (here : now.phase = .putting reading (step :: rest)) (more : rest ≠ [])
      (ran : step.run now.files = .ok files) :
      Step path interval now { now with files, phase := .putting reading rest }
  | land {reading : Reading} {step : Snapshot.Step} {files : Files}
      (here : now.phase = .putting reading [step]) (ran : step.run now.files = .ok files) :
      Step path interval now (now.finish reading true files)
  | fail {reading : Reading} {step : Snapshot.Step} {rest : List Snapshot.Step} {files : Files}
      (here : now.phase = .putting reading (step :: rest)) (breaks : step.Breaks now.files files) :
      Step path interval now (now.finish reading false files)

abbrev Steps (path : String) (interval : Nat) : Periodic → Periodic → Prop :=
  Relation.ReflTransGen (Step path interval)

end Periodic

/-! ### What is read -/

def heldAfter (before : Memory) (brought : List Metric) (count : Nat) : Memory :=
  (runAll Memory.update (brought.take count) before).2

def Reading.moment (reading : Reading) : Kind → Nat
  | .gauge => reading.gaugesAt
  | .counter => reading.countersAt

/-- Every series was read as the store held it between the reading of the gauges and that of the
counters. -/
structure Reading.IsGenuine (before : Memory) (brought : List Metric) (reading : Reading) :
    Prop where
  inOrder : reading.gaugesAt ≤ reading.countersAt
  past : reading.countersAt ≤ brought.length
  held : ∀ key, reading.memory.lookup key =
    (heldAfter before brought (reading.moment key.kind)).lookup key

variable {path : String} {interval : Nat} {before : Memory} {brought : List Metric}
  {reading : Reading}

theorem heldAfter_snoc {count : Nat} (past : count ≤ brought.length) (before : Memory)
    (m : Metric) :
    heldAfter before (brought ++ [m]) count = heldAfter before brought count := by
  rw [heldAfter, List.take_append_of_le_length past, heldAfter]

theorem update_heldAfter (before : Memory) (brought : List Metric) (m : Metric) :
    (Memory.update m (heldAfter before brought brought.length)).2 =
      heldAfter before (brought ++ [m]) (brought ++ [m]).length := by
  rw [heldAfter, heldAfter, List.take_length, List.take_length, runAll_snoc]

theorem isSound_heldAfter (sound : before.IsSound) (finite : ∀ m ∈ brought, m.value.isFinite)
    (count : Nat) :
    (heldAfter before brought count).IsSound :=
  runAll_keeps (P := Memory.IsSound)
    (fun _ member _ sound => sound.update (finite _ (List.mem_of_mem_take member)))
    sound

namespace Reading.IsGenuine

theorem gauges_past (genuine : reading.IsGenuine before brought) :
    reading.gaugesAt ≤ brought.length :=
  genuine.inOrder.trans genuine.past

theorem moment_past (genuine : reading.IsGenuine before brought) (kind : Kind) :
    reading.moment kind ≤ brought.length := by
  cases kind with
  | gauge => exact genuine.gauges_past
  | counter => exact genuine.past

theorem snoc (genuine : reading.IsGenuine before brought) (m : Metric) :
    reading.IsGenuine before (brought ++ [m]) where
  inOrder := genuine.inOrder
  past := by
    rw [List.length_append]
    exact genuine.past.trans (Nat.le_add_right ..)
  held key := by
    rw [heldAfter_snoc (genuine.moment_past key.kind)]
    exact genuine.held key

theorem isSound (genuine : reading.IsGenuine before brought) (sound : before.IsSound)
    (finite : ∀ m ∈ brought, m.value.isFinite) : reading.memory.IsSound where
  named key value there := by
    rw [genuine.held] at there
    exact (isSound_heldAfter sound finite _).named key value there
  finite key value there := by
    rw [genuine.held] at there
    exact (isSound_heldAfter sound finite _).finite key value there

end Reading.IsGenuine

namespace Periodic

variable {now next : Periodic}

theorem readings_eq {phase : Phase} (here : now.phase = phase) (made : next.made = now.made)
    (reading : next.phase.reading = phase.reading) : next.readings = now.readings := by
  rw [readings, readings, here, made, reading]

theorem readings_finish {rest : List Snapshot.Step} (here : now.phase = .putting reading rest)
    (saved : Bool) (files : Files) : (now.finish reading saved files).readings = now.readings := by
  have none : (Phase.after reading.closing).reading = [] := by
    unfold Phase.after
    split <;> rfl
  rw [readings, readings, here, finish, none, List.map_append, List.append_nil]
  rfl

structure Watched (before : Memory) (now : Periodic) : Prop where
  store : now.memory = heldAfter before now.brought now.brought.length
  genuine : ∀ reading ∈ now.readings, reading.IsGenuine before now.brought
  onward : now.readings.Pairwise fun earlier later => earlier.countersAt ≤ later.gaugesAt
  half : ∀ closing gaugesAt gauges, now.phase = .half closing gaugesAt gauges →
    gaugesAt ≤ now.brought.length ∧
    gauges = (heldAfter before now.brought gaugesAt).gauges ∧
    ∀ reading ∈ now.readings, reading.countersAt ≤ gaugesAt

theorem watched_start (interval : Nat) (memory : Memory) (files : Files) :
    (start interval memory files).Watched memory := by
  unfold start
  split <;> exact ⟨rfl, nofun, .nil, nofun⟩

theorem Watched.unread (watched : now.Watched before) (memory : next.memory = now.memory)
    (brought : next.brought = now.brought) (readings : next.readings = now.readings)
    (phase : ∀ closing gaugesAt gauges, next.phase = .half closing gaugesAt gauges →
      now.phase = next.phase) :
    next.Watched before := by
  refine ⟨?_, ?_, ?_, ?_⟩
  · rw [memory, brought]
    exact watched.store
  · rw [readings, brought]
    exact watched.genuine
  · rw [readings]
    exact watched.onward
  · intro closing gaugesAt gauges half
    rw [readings, brought]
    exact watched.half closing gaugesAt gauges ((phase _ _ _ half).trans half)

theorem Watched.update (watched : now.Watched before) (m : Metric) :
    (now.update m).Watched before where
  store := by
    rw [Periodic.update, watched.store]
    exact update_heldAfter before now.brought m
  genuine reading member := (watched.genuine reading member).snoc m
  onward := watched.onward
  half closing gaugesAt gauges half := by
    obtain ⟨past, same, onward⟩ := watched.half closing gaugesAt gauges half
    refine ⟨?_, same.trans (congrArg Memory.gauges (heldAfter_snoc past before m).symm), onward⟩
    rw [Periodic.update, List.length_append]
    exact past.trans (Nat.le_add_right ..)

theorem readings_of_unread (unread : now.phase.reading = []) :
    now.readings = now.made.map (·.toReading) := by
  rw [readings, unread, List.append_nil]

theorem Watched.readGauges (watched : now.Watched before) {closing : Bool}
    (here : now.phase = .opening closing) :
    { now with phase := .half closing now.brought.length now.memory.gauges }.Watched before := by
  have same : { now with phase := .half closing now.brought.length now.memory.gauges }.readings =
      now.readings :=
    readings_eq here rfl rfl
  refine ⟨watched.store, ?_, ?_, ?_⟩
  · rw [same]
    exact watched.genuine
  · rw [same]
    exact watched.onward
  · rintro _ _ _ ⟨⟩
    rw [same]
    exact ⟨le_rfl, congrArg Memory.gauges watched.store, fun reading member =>
      (watched.genuine reading member).past⟩

theorem Watched.readCounters (watched : now.Watched before) {closing : Bool} {gaugesAt : Nat}
    {gauges : Table String Binary64} (here : now.phase = .half closing gaugesAt gauges)
    (path : String) :
    (now.read path ⟨closing, gaugesAt, now.brought.length, ⟨gauges, now.memory.counters⟩⟩).Watched
      before := by
  obtain ⟨past, same, onward⟩ := watched.half closing gaugesAt gauges here
  have unread : now.readings = now.made.map (·.toReading) := readings_of_unread (by rw [here]; rfl)
  have earlier := watched.genuine
  have ordered := watched.onward
  rw [unread] at earlier ordered onward
  refine ⟨watched.store, ?_, ?_, nofun⟩
  · simp only [readings, Periodic.read, Phase.reading, List.forall_mem_append,
      List.forall_mem_singleton]
    refine ⟨earlier, past, le_rfl, ?_⟩
    -- The gauges are of the earlier moment, the counters of this one.
    rintro ⟨id, kind⟩
    cases kind with
    | gauge => rw [same]; rfl
    | counter => rw [watched.store]; rfl
  · simp only [readings, Periodic.read, Phase.reading, List.pairwise_append, List.mem_singleton]
    refine ⟨ordered, List.pairwise_singleton _ _, ?_⟩
    rintro reading member _ rfl
    exact onward reading member

theorem Watched.step (watched : now.Watched before) (step : Step path interval now next) :
    next.Watched before := by
  cases step with
  | update m => exact watched.update m
  | cancel live => exact watched.unread rfl rfl rfl fun _ _ _ _ => rfl
  | firstTick here | tick here | leave here | put here =>
    exact watched.unread rfl rfl (readings_eq here rfl rfl) nofun
  | readGauges here => exact watched.readGauges here
  | readCounters here => exact watched.readCounters here path
  | @land reading _ _ here | @fail reading _ _ _ here =>
    refine watched.unread rfl rfl (readings_finish here _ _) ?_
    exact fun _ _ _ half => absurd half (Phase.after_ne reading.closing nofun nofun)

/-! ### The file -/

def lastSaved (made : List Attempt) : Option Attempt := (made.filter (·.saved)).getLast?

/-- What is at the path: all that the last save to succeed has read, or what was there before. -/
def shown (old : Option Node) (made : List Attempt) : Option Node :=
  match lastSaved made with
  | none => old
  | some last => some (.file (bytes last.memory.contents))

theorem shown_saved (old : Option Node) (made : List Attempt) (last : Attempt)
    (saved : last.saved) :
    shown old (made ++ [last]) = some (.file (bytes last.memory.contents)) := by
  have own : lastSaved (made ++ [last]) = some last := by simp [lastSaved, saved]
  rw [shown, own]

theorem shown_failed (old : Option Node) (made : List Attempt) (last : Attempt)
    (failed : last.saved = false) :
    shown old (made ++ [last]) = shown old made := by
  have same : lastSaved (made ++ [last]) = lastSaved made := by simp [lastSaved, failed]
  rw [shown, same, shown]

structure Filed (path : String) (old : Option Node) (now : Periodic) : Prop where
  target : now.files.node? path = shown old now.made
  underway : ∀ reading rest, now.phase = .putting reading rest → rest ≠ [] ∧
    ∃ files, Underway path (bytes reading.memory.contents) files now.files rest

variable {old : Option Node}

theorem filed_start (path : String) (interval : Nat) (memory : Memory) (files : Files) :
    (start interval memory files).Filed path (files.node? path) := by
  unfold start
  split <;> exact ⟨rfl, nofun⟩

theorem Filed.unmoved (filed : now.Filed path old) (files : next.files = now.files)
    (made : next.made = now.made)
    (phase : ∀ reading rest, next.phase = .putting reading rest → now.phase = next.phase) :
    next.Filed path old := by
  refine ⟨?_, ?_⟩
  · rw [files, made]
    exact filed.target
  · intro reading rest putting
    rw [files]
    exact filed.underway reading rest ((phase _ _ putting).trans putting)

theorem filed_finish {saved : Bool} {files : Files}
    (target : files.node? path = shown old (now.made ++ [⟨reading, saved⟩])) :
    (now.finish reading saved files).Filed path old where
  target := target
  underway _ _ putting := absurd putting (Phase.after_ne reading.closing nofun nofun)

theorem Filed.step (filed : now.Filed path old) (step : Step path interval now next) :
    next.Filed path old := by
  cases step with
  | update m => exact filed.unmoved rfl rfl fun _ _ _ => rfl
  | cancel live => exact filed.unmoved rfl rfl fun _ _ _ => rfl
  | firstTick | tick | leave | readGauges =>
    refine filed.unmoved rfl rfl ?_
    rintro _ _ ⟨⟩
  | readCounters here =>
    refine ⟨filed.target, ?_⟩
    rintro reading rest ⟨⟩
    exact ⟨by simp [steps], now.files, underway_start path _ now.files⟩
  | put here more ran =>
    obtain ⟨-, start, underway⟩ := filed.underway _ _ here
    -- Only the last step of a save makes the new file.
    rcases underway.advances ran with ⟨-, advanced⟩ | ⟨rfl, -⟩
    · refine ⟨(advanced.target.trans underway.target.symm).trans filed.target, ?_⟩
      rintro reading rest ⟨⟩
      exact ⟨more, start, advanced⟩
    · exact absurd rfl more
  | @land reading step files here ran =>
    obtain ⟨-, start, underway⟩ := filed.underway _ _ here
    rcases underway.advances ran with ⟨more, -⟩ | ⟨-, landed⟩
    · exact absurd rfl more
    · exact filed_finish (landed.target.trans (shown_saved old now.made ⟨reading, true⟩ rfl).symm)
  | @fail reading step rest files here breaks =>
    obtain ⟨-, start, underway⟩ := filed.underway _ _ here
    apply filed_finish
    calc files.node? path = start.node? path := underway.breaks breaks
      _ = now.files.node? path := underway.target.symm
      _ = shown old now.made := filed.target
      _ = shown old (now.made ++ [⟨reading, false⟩]) :=
        (shown_failed old now.made ⟨reading, false⟩ rfl).symm

/-! ### How many saves there are -/

/-- The saves that have begun, with which of them is the closing one. -/
def begun (now : Periodic) : List Bool := now.made.map (·.closing) ++ now.phase.begun

structure Counted (interval : Nat) (now : Periodic) : Prop where
  saves : now.begun = List.replicate now.ticks false ++ if now.phase.isClosing then [true] else []
  untimed : interval = 0 → now.ticks = 0
  cancelled : now.phase.isClosing → now.cancelled ≠ none

theorem counted_start (interval : Nat) (memory : Memory) (files : Files) :
    (start interval memory files).Counted interval := by
  unfold start
  split <;> exact ⟨rfl, fun _ => rfl, nofun⟩

theorem Counted.unbegun (counted : now.Counted interval) (begun : next.begun = now.begun)
    (ticks : next.ticks = now.ticks) (isClosing : next.phase.isClosing = now.phase.isClosing)
    (cancelled : next.cancelled = now.cancelled) : next.Counted interval := by
  refine ⟨?_, ?_, ?_⟩
  · rw [begun, ticks, isClosing]
    exact counted.saves
  · rw [ticks]
    exact counted.untimed
  · rw [isClosing, cancelled]
    exact counted.cancelled

theorem begun_after (closing : Bool) :
    (Phase.after closing).begun = [] ∧ (Phase.after closing).isClosing = closing := by
  cases closing <;> exact ⟨rfl, rfl⟩

theorem Counted.finish (counted : now.Counted interval) {rest : List Snapshot.Step}
    (here : now.phase = .putting reading rest) (saved : Bool) (files : Files) :
    (now.finish reading saved files).Counted interval := by
  obtain ⟨none, closing⟩ := begun_after reading.closing
  refine counted.unbegun ?_ rfl ?_ rfl
  · rw [begun, begun, here, Periodic.finish, none, List.map_append, List.append_nil]
    rfl
  · rw [here]
    exact closing

theorem Counted.idle (counted : now.Counted interval) (here : now.phase = .waiting) :
    now.made.map (·.closing) = List.replicate now.ticks false := by
  have saves := counted.saves
  rw [begun, here] at saves
  exact (List.append_nil _).symm.trans (saves.trans (List.append_nil _))

theorem Counted.step (counted : now.Counted interval) (step : Step path interval now next) :
    next.Counted interval := by
  cases step with
  | update m => exact counted.unbegun rfl rfl rfl rfl
  | cancel live => exact ⟨counted.saves, counted.untimed, nofun⟩
  | firstTick here | readGauges here | readCounters here | put here =>
    refine counted.unbegun ?_ rfl ?_ rfl
    · rw [begun, begun, here]
      rfl
    · rw [here]
      rfl
  | tick here timed =>
    refine ⟨?_, fun untimed => absurd untimed timed, nofun⟩
    calc now.made.map (·.closing) ++ [false] = List.replicate now.ticks false ++
      [false] := by rw [counted.idle here]
      _ = List.replicate (now.ticks + 1) false := (List.replicate_succ' ..).symm
      _ = List.replicate (now.ticks + 1) false ++ [] := (List.append_nil _).symm
  | leave here cancelled =>
    exact ⟨congrArg (· ++ [true]) (counted.idle here), counted.untimed, fun _ => cancelled⟩
  | land here | fail here => exact counted.finish here _ _

/-! ### What the closing save covers -/

structure Covered (now : Periodic) : Prop where
  past : ∀ count, now.cancelled = some count → count ≤ now.brought.length
  closing : ∀ reading ∈ now.readings, reading.closing → ∃ count, now.cancelled = some count ∧
    count ≤ reading.gaugesAt
  half : ∀ gaugesAt gauges, now.phase = .half true gaugesAt gauges →
    ∃ count, now.cancelled = some count ∧ count ≤ gaugesAt

theorem covered_start (interval : Nat) (memory : Memory) (files : Files) :
    (start interval memory files).Covered := by
  unfold start
  split <;> exact ⟨nofun, nofun, nofun⟩

theorem Covered.unread (covered : now.Covered) (brought : next.brought = now.brought)
    (cancelled : next.cancelled = now.cancelled) (readings : next.readings = now.readings)
    (phase : ∀ gaugesAt gauges, next.phase = .half true gaugesAt gauges → now.phase = next.phase) :
    next.Covered := by
  refine ⟨?_, ?_, ?_⟩
  · rw [cancelled, brought]
    exact covered.past
  · rw [cancelled, readings]
    exact covered.closing
  · intro gaugesAt gauges half
    rw [cancelled]
    exact covered.half gaugesAt gauges ((phase _ _ half).trans half)

theorem Covered.update (covered : now.Covered) (m : Metric) : (now.update m).Covered where
  past count cancelled := by
    rw [Periodic.update, List.length_append]
    exact (covered.past count cancelled).trans (Nat.le_add_right ..)
  closing := covered.closing
  half := covered.half

theorem Covered.cancel (covered : now.Covered) (live : now.cancelled = none) :
    { now with cancelled := some now.brought.length }.Covered := by
  have none : ∀ {count : Nat}, now.cancelled ≠ some count := by
    intro count
    rw [live]
    nofun
  refine ⟨?_, ?_, ?_⟩
  · rintro count ⟨⟩
    exact le_rfl
  · intro reading member closing
    obtain ⟨count, cancelled, -⟩ := covered.closing reading member closing
    exact absurd cancelled none
  · intro gaugesAt gauges half
    obtain ⟨count, cancelled, -⟩ := covered.half gaugesAt gauges half
    exact absurd cancelled none

theorem Covered.readGauges (covered : now.Covered) (counted : now.Counted interval) {closing : Bool}
    (here : now.phase = .opening closing) :
    { now with phase := .half closing now.brought.length now.memory.gauges }.Covered := by
  refine ⟨covered.past, ?_, ?_⟩
  · have earlier := covered.closing
    rw [readings, here] at earlier
    exact earlier
  · rintro _ _ ⟨⟩
    have closing : now.phase.isClosing := by rw [here]; rfl
    obtain ⟨count, cancelled⟩ := Option.ne_none_iff_exists'.1 (counted.cancelled closing)
    exact ⟨count, cancelled, covered.past count cancelled⟩

theorem Covered.readCounters (covered : now.Covered) {closing : Bool} {gaugesAt : Nat}
    {gauges : Table String Binary64} (here : now.phase = .half closing gaugesAt gauges)
    (path : String) :
    (now.read path
      ⟨closing, gaugesAt, now.brought.length, ⟨gauges, now.memory.counters⟩⟩).Covered := by
  have earlier := covered.closing
  rw [readings_of_unread (by rw [here]; rfl)] at earlier
  refine ⟨covered.past, ?_, nofun⟩
  simp only [readings, Periodic.read, Phase.reading, List.forall_mem_append,
    List.forall_mem_singleton]
  refine ⟨earlier, ?_⟩
  rintro rfl
  exact covered.half gaugesAt gauges here

theorem Covered.step (covered : now.Covered) (counted : now.Counted interval)
    (step : Step path interval now next) :
    next.Covered := by
  cases step with
  | update m => exact covered.update m
  | cancel live => exact covered.cancel live
  | firstTick here | tick here | leave here | put here =>
    exact covered.unread rfl rfl (readings_eq here rfl rfl) nofun
  | readGauges here => exact covered.readGauges counted here
  | readCounters here => exact covered.readCounters here path
  | @land reading _ _ here | @fail reading _ _ _ here =>
    refine covered.unread rfl rfl (readings_finish here _ _) ?_
    exact fun _ _ half => absurd half (Phase.after_ne reading.closing nofun nofun)

/-! ### Runs -/

structure Kept (path : String) (interval : Nat) (memory : Memory) (files : Files) (now : Periodic) :
    Prop where
  watched : now.Watched memory
  filed : now.Filed path (files.node? path)
  counted : now.Counted interval
  covered : now.Covered

variable {memory : Memory} {files : Files}

theorem kept_start (path : String) (interval : Nat) (memory : Memory) (files : Files) :
    (start interval memory files).Kept path interval memory files where
  watched := watched_start interval memory files
  filed := filed_start path interval memory files
  counted := counted_start interval memory files
  covered := covered_start interval memory files

theorem Kept.step (kept : now.Kept path interval memory files)
    (step : Step path interval now next) :
    next.Kept path interval memory files where
  watched := kept.watched.step step
  filed := kept.filed.step step
  counted := kept.counted.step step
  covered := kept.covered.step kept.counted step

theorem kept_of_steps (steps : Steps path interval (start interval memory files) now) :
    now.Kept path interval memory files := by
  induction steps with
  | refl => exact kept_start path interval memory files
  | tail _ step ih => exact ih.step step

/-! ### A task that nobody interrupts -/

theorem steps_put {rest : List Snapshot.Step} (here : now.phase = .putting reading rest)
    (some : rest ≠ []) :
    ∃ saved, Steps path interval now (now.finish reading saved (runSteps rest now.files).2) := by
  induction rest generalizing now with
  | nil => exact absurd rfl some
  | cons step rest ih =>
    cases ran : step.run now.files with
    | error fault =>
      refine ⟨false, .single ?_⟩
      simp only [runSteps, ran]
      exact .fail here (.untouched step)
    | ok files =>
      simp only [runSteps, ran]
      by_cases last : rest = []
      · subst last
        exact ⟨true, .single (.land here ran)⟩
      · obtain ⟨saved, later⟩ := @ih { now with files, phase := .putting reading rest } rfl last
        exact ⟨saved, .head (.put here last ran) later⟩

theorem savedTo_eq (path : String) (memory : Memory) (files : Files) :
    Saved.save Memory.storage path ⟨memory, files⟩ =
      ⟨memory, (runSteps (steps path (bytes memory.contents)) files).2⟩ := by
  simp only [Saved.save, Memory.storage, save_eq]

structure Follows (path : String) (closing : Bool) (now next : Periodic) : Prop where
  phase : next.phase = .after closing
  saved : ⟨next.memory, next.files⟩ = Saved.save Memory.storage path ⟨now.memory, now.files⟩
  cancelled : next.cancelled = now.cancelled
  ticks : next.ticks = now.ticks

theorem Follows.finish (path : String) (reading : Reading) (done : Bool) {files : Files}
    (written : files = (runSteps (steps path (bytes now.memory.contents)) now.files).2) :
    Follows path reading.closing now (now.finish reading done files) where
  phase := rfl
  saved := by
    rw [savedTo_eq, ← written]
    rfl
  cancelled := rfl
  ticks := rfl

theorem steps_save {closing : Bool} (here : now.phase = .opening closing) :
    ∃ next, Steps path interval now next ∧ Follows path closing now next := by
  let half : Periodic := { now with phase := .half closing now.brought.length now.memory.gauges }
  let reading : Reading := ⟨closing, now.brought.length, now.brought.length, now.memory⟩
  have reads : Steps path interval now (half.read path reading) :=
    (Relation.ReflTransGen.single (.readGauges here)).tail (.readCounters rfl)
  obtain ⟨done, puts⟩ :=
    @steps_put path interval reading (half.read path reading) _ rfl (by simp [steps])
  exact ⟨now.finish reading done _, reads.trans puts, .finish path reading done rfl⟩

def Ends (path : String) (interval : Nat) (now : Periodic) : Prop :=
  ∃ last, Steps path interval now last ∧ last.phase = .ended

theorem ends_of_steps (steps : Steps path interval now next) (ends : next.Ends path interval) :
    now.Ends path interval := by
  obtain ⟨last, later, ended⟩ := ends
  exact ⟨last, steps.trans later, ended⟩

/-- Once it has been cancelled, a task that waits makes its closing save and ends. -/
theorem ends_of_cancelled (here : now.phase = .waiting) (cancelled : now.cancelled ≠ none) :
    now.Ends path interval := by
  obtain ⟨last, closes, follows⟩ :=
    @steps_save path interval { now with phase := .opening true } true rfl
  exact ⟨last, .head (.leave here cancelled) closes, follows.phase⟩

theorem ends_of_waiting (here : now.phase = .waiting) : now.Ends path interval := by
  cases live : now.cancelled with
  | none =>
    have cancelled :
        ({ now with cancelled := some now.brought.length } : Periodic).Ends path interval :=
      ends_of_cancelled here nofun
    exact ends_of_steps (.single (.cancel live)) cancelled
  | some count => exact ends_of_cancelled here (by rw [live]; nofun)

theorem ends_of_after {closing : Bool} (here : now.phase = .after closing) :
    now.Ends path interval := by
  cases closing with
  | true => exact ⟨now, .refl, here⟩
  | false => exact ends_of_waiting here

theorem ends_of_putting {rest : List Snapshot.Step} (here : now.phase = .putting reading rest)
    (some : rest ≠ []) :
    now.Ends path interval := by
  obtain ⟨saved, puts⟩ := @steps_put path interval reading now rest here some
  exact ends_of_steps puts (ends_of_after rfl)

theorem Kept.ends (kept : now.Kept path interval memory files) : now.Ends path interval := by
  cases here : now.phase with
  | starting =>
    have waits : { now with phase := .waiting }.Ends path interval := ends_of_waiting rfl
    exact ends_of_steps (.single (.firstTick here)) waits
  | waiting => exact ends_of_waiting here
  | opening closing =>
    obtain ⟨next, saves, follows⟩ := @steps_save path interval now closing here
    exact ends_of_steps saves (ends_of_after follows.phase)
  | half closing gaugesAt gauges =>
    let reading : Reading := ⟨closing, gaugesAt, now.brought.length, ⟨gauges, now.memory.counters⟩⟩
    have puts : (now.read path reading).Ends path interval := ends_of_putting rfl (by simp [steps])
    exact ends_of_steps (.single (.readCounters here)) puts
  | putting reading rest => exact ends_of_putting here (kept.filed.underway reading rest here).1
  | ended => exact ⟨now, .refl, here⟩

end Periodic

/-! ### Scripts -/

namespace Task

/-- What happens to a store and the task that saves it: writes, and time that passes. -/
inductive Event where
  | write (write : Write)
  | sleep (span : Nat)

def take (run : Task × Saved Memory) : Event → Task × Saved Memory
  | .write write => (run.1, (run.2.run (Memory.storage.write write)).2)
  | .sleep span => run.1.sleep Memory.storage span run.2

def play (task : Task) (events : List Event) (saved : Saved Memory) : Task × Saved Memory :=
  let run := events.foldl take (task, saved)
  run.1.cancel Memory.storage run.2

end Task

namespace Periodic

variable {now : Periodic} {saved : Saved Memory} {ticks : Nat}

/-- The task waits, after so many ticks, for a store and files that are as they are saved there. -/
structure Rests (saved : Saved Memory) (ticks : Nat) (now : Periodic) : Prop where
  waiting : now.phase = .waiting
  live : now.cancelled = none
  same : ⟨now.memory, now.files⟩ = saved
  ticks : now.ticks = ticks

theorem rests_start (path : String) (interval : Nat) (memory : Memory) (files : Files) :
    ∃ now, Steps path interval (start interval memory files) now ∧ Rests ⟨memory, files⟩ 0 now := by
  refine ⟨⟨memory, files, .waiting, [], none, 0, []⟩, ?_, rfl, rfl, rfl, rfl⟩
  unfold start
  split
  · exact .refl
  · exact .single (.firstTick rfl)

theorem steps_updateEach (ms : List Metric) (now : Periodic) :
    ∃ brought, Steps path interval now
      { now with
        memory := (updateEach Memory.update ms now.memory).2
        brought := now.brought ++ brought } := by
  induction ms generalizing now with
  | nil =>
    refine ⟨[], ?_⟩
    rw [List.append_nil]
    exact .refl
  | cons m rest ih =>
    have first : Steps path interval now (now.update m) := .single (.update m)
    rcases step : Memory.update m now.memory with ⟨fault | ⟨⟩, memory⟩ <;>
      rw [update, step] at first
    · rw [updateEach_cons_error step]
      exact ⟨[m], first⟩
    · obtain ⟨brought, later⟩ := ih { now with memory, brought := now.brought ++ [m] }
      rw [updateEach_cons_ok step]
      refine ⟨m :: brought, first.trans ?_⟩
      rw [List.append_assoc] at later
      exact later

theorem Rests.write (rests : now.Rests saved ticks) (path : String) (interval : Nat)
    (write : Write) :
    ∃ next, Steps path interval now next ∧
      next.Rests (saved.run (Memory.storage.write write)).2 ticks := by
  obtain ⟨waiting, live, rfl, rfl⟩ := rests
  obtain ⟨brought, updates⟩ := @steps_updateEach path interval write.metrics now
  rw [← Memory.storage_write] at updates
  exact ⟨_, updates, waiting, live, rfl, rfl⟩

theorem Rests.save (rests : now.Rests saved ticks) (path : String) (timed : interval ≠ 0) :
    ∃ next, Steps path interval now next ∧
      next.Rests (saved.save Memory.storage path) (ticks + 1) := by
  obtain ⟨waiting, live, rfl, rfl⟩ := rests
  obtain ⟨next, saves, follows⟩ :=
    @steps_save path interval { now with phase := .opening false, ticks := now.ticks + 1 } false rfl
  exact ⟨next, .head (.tick waiting timed) saves, follows.phase, follows.cancelled.trans live,
    follows.saved, follows.ticks⟩

theorem Rests.saves (rests : now.Rests saved ticks) (path : String) {count : Nat}
    (timed : interval = 0 → count = 0) :
    ∃ next, Steps path interval now next ∧
      next.Rests (count.repeat (Saved.save Memory.storage path) saved) (ticks + count) := by
  induction count with
  | zero => exact ⟨now, .refl, rests⟩
  | succ count ih =>
    have timed : interval ≠ 0 := fun untimed => nomatch timed untimed
    obtain ⟨middle, earlier, rests⟩ := ih fun untimed => absurd untimed timed
    obtain ⟨next, later, rests⟩ := rests.save path timed
    exact ⟨next, earlier.trans later, rests⟩

theorem Rests.cancel (rests : now.Rests saved ticks) (path : String) (interval : Nat) :
    ∃ last, Steps path interval now last ∧ last.phase = .ended ∧
      ⟨last.memory, last.files⟩ = saved.save Memory.storage path ∧ last.ticks = ticks := by
  obtain ⟨waiting, live, rfl, rfl⟩ := rests
  have leaves : Step path interval { now with cancelled := some now.brought.length }
      { now with cancelled := some now.brought.length, phase := .opening true } :=
        .leave waiting nofun
  obtain ⟨last, saves, follows⟩ :=
    @steps_save path interval
      { now with cancelled := some now.brought.length, phase := .opening true } true rfl
  exact ⟨last, .head (.cancel live) (.head leaves saves), follows.phase, follows.saved,
    follows.ticks⟩

def ticksBefore (interval elapsed : Nat) : Nat := (elapsed - 1) / interval

theorem ticksBefore_add (path : String) (interval elapsed span : Nat) :
    ticksBefore interval elapsed + ({ path, interval, elapsed } : Task).ticksWithin span =
      ticksBefore interval (elapsed + span) := by
  have later : elapsed - 1 ≤ elapsed + span - 1 := by omega
  have grows : ticksBefore interval elapsed ≤ ticksBefore interval (elapsed + span) :=
    Nat.div_le_div_right later
  unfold Task.ticksWithin
  split
  next never =>
    have untimed : interval = 0 := never.resolve_left Bool.false_ne_true
    rw [ticksBefore, ticksBefore, untimed, Nat.div_zero, Nat.div_zero]
  next => exact Nat.add_sub_cancel' grows

theorem Rests.take {elapsed : Nat} (rests : now.Rests saved (ticksBefore interval elapsed))
    (path : String) (event : Task.Event) :
    ∃ next later after, Task.take ({ path, interval, elapsed }, saved) event =
        ({ path, interval, elapsed := later }, after) ∧
      Steps path interval now next ∧ next.Rests after (ticksBefore interval later) := by
  cases event with
  | write write =>
    obtain ⟨next, steps, rests⟩ := rests.write path interval write
    exact ⟨next, elapsed, _, rfl, steps, rests⟩
  | sleep span =>
    have untimed : interval = 0 → ({ path, interval, elapsed } : Task).ticksWithin span = 0 :=
      fun untimed => if_pos (.inr untimed)
    obtain ⟨next, steps, rests⟩ := rests.saves path untimed
    rw [ticksBefore_add] at rests
    exact ⟨next, elapsed + span, _, rfl, steps, rests⟩

theorem Rests.takes {elapsed : Nat} (rests : now.Rests saved (ticksBefore interval elapsed))
    (path : String) (events : List Task.Event) :
    ∃ next later after, events.foldl Task.take ({ path, interval, elapsed }, saved) =
        ({ path, interval, elapsed := later }, after) ∧
      Steps path interval now next ∧ next.Rests after (ticksBefore interval later) := by
  induction events generalizing now saved elapsed with
  | nil => exact ⟨now, elapsed, saved, rfl, .refl, rests⟩
  | cons event rest ih =>
    obtain ⟨middle, later, after, takes, steps, rests⟩ := rests.take path event
    obtain ⟨next, latest, last, takesOn, stepsOn, rests⟩ := ih rests
    rw [List.foldl_cons, takes]
    exact ⟨next, latest, last, takesOn, steps.trans stepsOn, rests⟩

/-- Every script is a run that has come to its end. -/
theorem steps_play (path : String) (interval : Nat) (memory : Memory) (files : Files)
    (events : List Task.Event) :
    ∃ last, Steps path interval (start interval memory files) last ∧ last.phase = .ended ∧
      ⟨last.memory, last.files⟩ = (Task.play { path, interval } events ⟨memory, files⟩).2 ∧
        last.ticks =
          ticksBefore interval (Task.play { path, interval } events ⟨memory, files⟩).1.elapsed := by
  obtain ⟨now, starts, rests⟩ := rests_start path interval memory files
  have rests : now.Rests ⟨memory, files⟩ (ticksBefore interval 0) := by
    rw [ticksBefore, Nat.zero_div]
    exact rests
  obtain ⟨middle, elapsed, saved, takes, steps, rests⟩ := rests.takes path events
  obtain ⟨last, closes, ended, same, ticks⟩ := rests.cancel path interval
  rw [Task.play, takes]
  exact ⟨last, (starts.trans steps).trans closes, ended, same, ticks⟩

end Periodic

/-! ### What is saved, and when -/

structure Closed (path : String) (ended : Periodic) (onTicks : List Attempt) (last : Attempt) :
    Prop where
  made : ended.made = onTicks ++ [last]
  ticks : onTicks.length = ended.ticks
  notClosing : ∀ attempt ∈ onTicks, attempt.closing = false
  closing : last.closing
  /-- It reads nothing from before the cancellation. -/
  covers : ∃ count, ended.cancelled = some count ∧ count ≤ last.gaugesAt ∧ count ≤ last.countersAt
  file : last.saved → ended.files.node? path = some (.file (bytes last.memory.contents))

/-- What is known at any moment of a run over a store and files that were there before. -/
structure Known (path : String) (interval : Nat) (before : Memory) (files : Files)
    (now : Periodic) : Prop where
  store : now.memory = heldAfter before now.brought now.brought.length
  /-- The file is the one from before, or all of what the last save to succeed has read, and that
  can be loaded. -/
  file : now.files.node? path = Periodic.shown (files.node? path) now.made
  loads : before.IsSound → (∀ m ∈ now.brought, m.value.isFinite) →
    ∀ last, Periodic.lastSaved now.made = some last →
    ∃ restored : Memory,
      load Memory.storage path now.files {} = (.ok last.memory.contents.size, restored) ∧
        restored.contents = last.memory.contents
  genuine : ∀ reading ∈ now.readings, reading.IsGenuine before now.brought
  /-- No save reads anything older than what the one before it has read. -/
  onward : now.readings.Pairwise fun earlier later => earlier.countersAt ≤ later.gaugesAt
  /-- A save has begun at every tick and, once the task is cancelled, one more. -/
  begun : now.begun = List.replicate now.ticks false ∨
    now.cancelled ≠ none ∧ now.begun = List.replicate now.ticks false ++ [true]
  untimed : interval = 0 → now.ticks = 0
  ended : now.phase = .ended → ∃ onTicks last, Closed path now onTicks last

/-- What is known of the task, whenever updates, ticks and the cancellation come and whichever steps
fail. -/
structure SavesOnTime (path : String) (interval : Nat) (memory : Memory) (files : Files) :
    Prop where
  known : ∀ now, Periodic.Steps path interval (.start interval memory files) now →
    Known path interval memory files now
  /-- It can always be cancelled and come to its end. -/
  ends : ∀ now, Periodic.Steps path interval (.start interval memory files) now →
    ∃ last, Periodic.Steps path interval now last ∧ last.phase = .ended
  /-- What the task does on a script is what it does in one of these runs. -/
  plays : ∀ events : List Task.Event, ∃ last,
    Periodic.Steps path interval (.start interval memory files) last ∧ last.phase = .ended ∧
    ⟨last.memory, last.files⟩ = (Task.play { path, interval } events ⟨memory, files⟩).2 ∧
      last.ticks =
        Periodic.ticksBefore interval
          (Task.play { path, interval } events ⟨memory, files⟩).1.elapsed

namespace Periodic

variable {now : Periodic} {memory : Memory} {files : Files}

theorem mem_of_lastSaved {made : List Attempt} {last : Attempt}
    (some : lastSaved made = .some last) : last ∈ made :=
  (List.mem_filter.1 (List.mem_of_getLast? some)).1

theorem mem_readings {attempt : Attempt} (member : attempt ∈ now.made) :
    attempt.toReading ∈ now.readings :=
  List.mem_append_left _ (List.mem_map_of_mem member)

theorem Kept.loads (kept : now.Kept path interval memory files) (sound : memory.IsSound)
    (finite : ∀ m ∈ now.brought, m.value.isFinite) {last : Attempt}
    (some : lastSaved now.made = .some last) :
    ∃ restored : Memory,
      load Memory.storage path now.files {} = (.ok last.memory.contents.size, restored) ∧
        restored.contents = last.memory.contents := by
  have genuine := kept.watched.genuine _ (mem_readings (mem_of_lastSaved some))
  have there := kept.filed.target
  rw [shown, some] at there
  exact load_of_node? (genuine.isSound sound finite) there

theorem Kept.begun (kept : now.Kept path interval memory files) :
    now.begun = List.replicate now.ticks false ∨
      now.cancelled ≠ none ∧ now.begun = List.replicate now.ticks false ++ [true] := by
  have saves := kept.counted.saves
  cases closing : now.phase.isClosing with
  | false =>
    rw [closing] at saves
    exact .inl (saves.trans (List.append_nil _))
  | true =>
    rw [closing] at saves
    exact .inr ⟨kept.counted.cancelled closing, saves⟩

theorem Kept.closed (kept : now.Kept path interval memory files) (ended : now.phase = .ended) :
    ∃ onTicks last, Closed path now onTicks last := by
  have saves := kept.counted.saves
  rw [Periodic.begun, ended] at saves
  obtain ⟨onTicks, closing, made, ticked, one⟩ :=
    List.map_eq_append_iff.1 ((List.append_nil _).symm.trans saves)
  obtain ⟨last, rfl, closes⟩ := List.map_eq_singleton_iff.1 one
  have member : last ∈ now.made := by
    rw [made]
    exact List.mem_append_right _ (List.mem_singleton_self last)
  obtain ⟨count, cancelled, covers⟩ := kept.covered.closing _ (mem_readings member) closes
  have inOrder := (kept.watched.genuine _ (mem_readings member)).inOrder
  refine ⟨onTicks, last, made, ?_, ?_, closes, ⟨count, cancelled, covers, covers.trans inOrder⟩, ?_⟩
  · rw [← List.length_map (·.closing), ticked, List.length_replicate]
  · intro attempt onTick
    have begun := List.mem_map_of_mem (f := (·.closing)) onTick
    rw [ticked] at begun
    exact List.eq_of_mem_replicate begun
  · intro saved
    rw [kept.filed.target, made]
    exact shown_saved _ onTicks last saved

end Periodic

theorem saves_on_time (path : String) (interval : Nat) (memory : Memory) (files : Files) :
    SavesOnTime path interval memory files where
  known now steps := by
    have kept := Periodic.kept_of_steps steps
    exact {
      store := kept.watched.store
      file := kept.filed.target
      loads := fun sound finite _ some => kept.loads sound finite some
      genuine := kept.watched.genuine
      onward := kept.watched.onward
      begun := kept.begun
      untimed := kept.counted.untimed
      ended := kept.closed }
  ends now steps := (Periodic.kept_of_steps steps).ends
  plays := Periodic.steps_play path interval memory files

end Telemetry.Snapshot
