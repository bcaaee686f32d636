import Telemetry.Proofs.Snapshot.Savers

/-!
Writers to a store in memory that is saved after every successful write, one after the other and in
every order of their steps. Main statement: their saves never meet; once a write has returned, every
series in the file has a value that the store has held since the write was applied; and once all
have returned, the file loads to what the store lists.
-/
namespace Telemetry.Snapshot

variable {place : Place} {path : String} {files next : Files} {memory : Memory}
  {save after : Saving}

/-! ### Writers that nobody interrupts -/

abbrev Saving.Moves (path : String) (memory : Memory) : Saving × Files → Saving × Files → Prop :=
  Relation.ReflTransGen fun now next => now.1.Move path memory now.2 next.1 next.2

theorem moves_put (read : Memory) (rest : List Step) (files : Files) :
    Saving.Moves path memory (.putting read rest, files)
      (.putting read [], (runSteps rest files).2) := by
  induction rest generalizing files with
  | nil => exact .refl
  | cons step rest ih =>
    cases run : step.run files with
    | error fault =>
      simp only [runSteps, run]
      exact .single (.giveUp run)
    | ok next =>
      simp only [runSteps, run]
      exact .head (.step run) (ih next)

theorem moves_read (path : String) (memory : Memory) (files : Files) :
    Saving.Moves path memory (.begun, files) (.putting memory (steps path (bytes memory.contents)),
      files) := by
  have gauges : Saving.Moves path memory (.begun, files) (.half memory.gauges, files) :=
    .single .readGauges
  have counters : Saving.Moves path memory (.half memory.gauges, files)
      (.putting memory (steps path (bytes memory.contents)), files) :=
        .single (.readCounters memory.gauges)
  exact gauges.trans counters

theorem moves_save (path : String) (memory : Memory) (files : Files) :
    Saving.Moves path memory (.begun, files)
      (.putting memory [], (Snapshot.save path (.ok memory.contents) files).2) := by
  rw [save_eq]
  exact (moves_read path memory files).trans (moves_put memory _ files)

namespace Savers

variable {now then_ : Savers}

theorem steps_of_moves {writer : Nat} (here : now.writers[writer]? = some (.saving save))
    {last : Saving × Files} (moves : Saving.Moves path now.memory (save, now.files) last) :
    Steps path now
      { now with files := last.2, writers := now.writers.set writer (.saving last.1) } := by
  obtain ⟨bound, there⟩ := List.getElem?_eq_some_iff.1 here
  induction moves with
  | refl =>
    rw [← there, List.set_getElem_self]
  | tail earlier move ih =>
    have next := ih.tail (.save (List.getElem?_set_self bound) move)
    rw [List.set_set] at next
    exact next

theorem steps_of_closing_moves (here : now.task = .saving save) {last : Saving × Files}
    (moves : Saving.Moves path now.memory (save, now.files) last) :
    Steps path now { now with files := last.2, task := .saving last.1 } := by
  induction moves with
  | refl => rw [← here]
  | tail earlier move ih => exact ih.tail (.close rfl move)

theorem steps_updateEach {writer : Nat} {ms : List Metric}
    (here : now.writers[writer]? = some (.applying ms)) :
    Steps path now
      { now with
        memory := (updateEach Memory.update ms now.memory).2
        writers := now.writers.set writer
          (match (updateEach Memory.update ms now.memory).1 with
          | .ok () => .applying []
          | .error fault => .returned (.error fault)) } := by
  obtain ⟨bound, there⟩ := List.getElem?_eq_some_iff.1 here
  induction ms generalizing now with
  | nil =>
    simp only [updateEach]
    rw [← there, List.set_getElem_self]
  | cons m rest ih =>
    rcases first : Memory.update m now.memory with ⟨fault | ⟨⟩, memory⟩
    · rw [updateEach_cons_error first]
      exact .single (.refuse here first)
    · rw [updateEach_cons_ok first]
      have bound' : writer < (now.writers.set writer (.applying rest)).length := by
        rwa [List.length_set]
      have later := @ih { now with memory, writers := now.writers.set writer (.applying rest) }
        (List.getElem?_set_self bound) bound' (List.getElem_set_self bound')
      simp only [List.set_set] at later
      exact .head (.apply here first) later

theorem steps_write {writer : Nat} {write : Write}
    (here : now.writers[writer]? = some (.applying write.metrics)) (free : now.lock = none)
    {result : Except StoreFault Unit} {saved : Saved Memory}
    (written : (writeThrough Memory.storage path).write write ⟨now.memory, now.files⟩ =
      (result, saved)) :
    Steps path now ⟨saved.state, saved.files, none, now.writers.set writer (.returned result),
      now.task⟩ := by
  have bound := (List.getElem?_eq_some_iff.1 here).1
  have applied := @steps_updateEach path now writer _ here
  rw [← Memory.storage_write] at applied
  rcases done : Memory.storage.write write now.memory with ⟨fault | ⟨⟩, after⟩ <;>
    rw [done] at applied
  · rw [@write_of_error ⟨now.memory, now.files⟩ _ _ _ path done] at written
    cases written
    rw [free] at applied
    exact applied
  · have moves := moves_save path after now.files
    rcases saves : Snapshot.save path (.ok after.contents) now.files with ⟨count, files⟩
    rw [saves] at moves
    rw [@write_of_ok ⟨now.memory, now.files⟩ _ _ _ _ _ done saves] at written
    cases written
    have locked := applied.tail (.lock (List.getElem?_set_self bound) free)
    rw [List.set_set] at locked
    have saved := locked.trans (steps_of_moves (List.getElem?_set_self bound) moves)
    simp only [List.set_set] at saved
    have unlocked := saved.tail (.unlock (List.getElem?_set_self bound))
    rw [List.set_set] at unlocked
    exact unlocked

/-! ### What a write that has returned can rely on -/

/-- A run with the stores it passes through, the first and the last one among them. -/
inductive Passes (steps : Savers → Savers → Prop) (now : Savers) : List Memory → Savers → Prop
  | here : Passes steps now [now.memory] now
  | step {held : List Memory} {mid next : Savers} (passes : Passes steps now held mid)
      (step : steps mid next) :
      Passes steps now (held ++ [next.memory]) next

end Savers

/-- The gauges were those of a store that was held, and so were the counters. -/
def Memory.Among (held : List Memory) (read : Memory) : Prop :=
  (∃ memory ∈ held, read.gauges = memory.gauges) ∧ ∃ memory ∈ held, read.counters = memory.counters

def Saving.ReadFrom (held : List Memory) : Saving → Prop
  | .begun => True
  | .half gauges => ∃ memory ∈ held, gauges = memory.gauges
  | .putting read _ => Memory.Among held read

variable {held : List Memory}

theorem Memory.Among.mono (among : Memory.Among held memory) (more : List Memory) :
    Memory.Among (held ++ more) memory := by
  obtain ⟨⟨one, inside, gauges⟩, other, inside', counters⟩ := among
  exact ⟨⟨one, List.mem_append_left _ inside, gauges⟩, other, List.mem_append_left _ inside',
    counters⟩

theorem Memory.Among.get? (among : Memory.Among held memory) (key : Key) :
    ∃ one ∈ held, memory.contents.get? key = one.lookup key := by
  obtain ⟨⟨one, inside, gauges⟩, other, inside', counters⟩ := among
  obtain ⟨id, kind⟩ := key
  cases kind with
  | gauge => exact ⟨one, inside, by rw [Memory.get?_contents, Memory.lookup, Memory.lookup, gauges]⟩
  | counter =>
    exact ⟨other, inside', by rw [Memory.get?_contents, Memory.lookup, Memory.lookup, counters]⟩

theorem Saving.ReadFrom.mono (from_ : save.ReadFrom held) (more : List Memory) :
    save.ReadFrom (held ++ more) := by
  cases save with
  | begun => trivial
  | half gauges =>
    obtain ⟨one, inside, same⟩ := from_
    exact ⟨one, List.mem_append_left _ inside, same⟩
  | putting read rest => exact Memory.Among.mono from_ more

theorem Saving.Move.readFrom (move : save.Move path memory files after next) (here : memory ∈ held)
    (from_ : save.ReadFrom held) : after.ReadFrom held := by
  cases move with
  | readGauges => exact ⟨memory, here, rfl⟩
  | readCounters gauges => exact ⟨from_, memory, here, rfl⟩
  | step run => exact from_
  | giveUp failed => exact from_

namespace Savers

variable {now then_ : Savers} {writer : Nat}

/-- How far a write has come that was applied before these stores were held. -/
structure Acked (place : Place) (writer : Nat) (held : List Memory) (now : Savers) : Prop where
  here : now.memory ∈ held
  phase : now.writers[writer]? = some (.applying []) ∨
    (∀ save, .saving save ∈ now.writers → save.ReadFrom held) ∧
      ((∃ save, now.writers[writer]? = some (.saving save)) ∨
        now.writers[writer]? = some (.returned (.ok ())) ∧
          now.Has place fun read => read.IsSound ∧ Memory.Among held read)

theorem readFrom_step (reads : ∀ save, .saving save ∈ now.writers → save.ReadFrom held)
    (here : now.memory ∈ held) (step : Step path now then_) : ∀ save, .saving save ∈ then_.writers →
      save.ReadFrom held := by
  have set : ∀ {writer new}, (∀ save, new = .saving save → save.ReadFrom held) →
      ∀ save, .saving save ∈ now.writers.set writer new → save.ReadFrom held := by
    intro writer new from_ save member
    rcases List.mem_or_eq_of_mem_set member with there | same
    · exact reads save there
    · exact from_ save same.symm
  cases step with
  | apply => exact set nofun
  | refuse => exact set nofun
  | lock =>
    refine set ?_
    rintro save ⟨⟩
    trivial
  | save there move =>
    refine set ?_
    rintro save ⟨⟩
    exact move.readFrom here (reads _ (List.mem_of_getElem? there))
  | unlock => exact set nofun
  | cancel => exact reads
  | close => exact reads
  | finish => exact reads

theorem getElem?_set_of_differ {writers : List Writer} {other : Nat} {old mine new : Writer}
    (here : writers[other]? = some old) (there : writers[writer]? = some mine)
    (differ : old ≠ mine) :
    (writers.set other new)[writer]? = some mine := by
  have apart : other ≠ writer := by
    rintro rfl
    rw [here] at there
    exact differ (Option.some.inj there)
  rw [List.getElem?_set_ne apart, there]

theorem phase_of_applying (locked : now.Locked)
    (applying : now.writers[writer]? = some (.applying [])) (step : Step path now then_) :
    then_.writers[writer]? = some (.applying []) ∨
      then_.writers[writer]? = some (.saving .begun) ∧ ∀ save, .saving save ∈ then_.writers →
        save = .begun := by
  cases step with
  | apply here | refuse here | save here | unlock here =>
    exact .inl (getElem?_set_of_differ here applying nofun)
  | @lock other here free =>
    by_cases own : other = writer
    · subst own
      refine .inr ⟨List.getElem?_set_self (List.getElem?_eq_some_iff.1 here).1, ?_⟩
      intro save member
      obtain ⟨index, there⟩ := List.mem_iff_getElem?.1 member
      rcases getElem?_set_eq_saving there with ⟨-, same⟩ | ⟨-, there⟩
      · cases same
        rfl
      · have held := locked.holder index save there
        rw [free] at held
        cases held
    · exact .inl ((List.getElem?_set_ne own).trans applying)
  | cancel | close | finish => exact .inl applying

theorem phase_of_saving (kept : now.Kept place)
    (saving : now.writers[writer]? = some (.saving save)) (step : Step place.path now then_) :
    (∃ save, then_.writers[writer]? = some (.saving save)) ∨
      then_.writers[writer]? = some (.returned (.ok ())) ∧
        ∃ read, .saving (.putting read []) ∈ now.writers ∧ then_.Has place (· = read) := by
  cases step with
  | apply here | refuse here | lock here =>
    exact .inl ⟨save, getElem?_set_of_differ here saving nofun⟩
  | save here move =>
    cases kept.locked.same here saving
    exact .inl ⟨_, List.getElem?_set_self (List.getElem?_eq_some_iff.1 here).1⟩
  | @unlock other read here =>
    cases kept.locked.same here saving
    have member := List.mem_of_getElem? here
    exact .inr ⟨List.getElem?_set_self (List.getElem?_eq_some_iff.1 here).1, read, member,
      kept.settled.landed read member⟩
  | cancel | close | finish => exact .inl ⟨save, saving⟩

theorem stays_returned {result : Except StoreFault Unit}
    (returned : now.writers[writer]? = some (.returned result)) (step : Step path now then_) :
    then_.writers[writer]? = some (.returned result) := by
  cases step with
  | apply here | refuse here | lock here | save here | unlock here =>
    exact getElem?_set_of_differ here returned nofun
  | cancel | close | finish => exact returned

theorem Acked.step (acked : now.Acked place writer held) (kept : now.Kept place)
    (step : Step place.path now then_) (apart : then_.Apart place.path) :
    then_.Acked place writer (held ++ [then_.memory]) := by
  refine ⟨List.mem_append_right _ (List.mem_singleton_self _), ?_⟩
  rcases acked.phase with applying | ⟨reads, phase⟩
  · rcases phase_of_applying kept.locked applying step with applying | ⟨saving, only⟩
    · exact .inl applying
    · refine .inr ⟨?_, .inl ⟨_, saving⟩⟩
      intro save member
      cases only save member
      trivial
  · have readsThen : ∀ save, .saving save ∈ then_.writers →
        save.ReadFrom (held ++ [then_.memory]) :=
      fun save member => (readFrom_step reads acked.here step save member).mono _
    refine .inr ⟨readsThen, ?_⟩
    rcases phase with ⟨save, saving⟩ | ⟨returned, has⟩
    · rcases phase_of_saving kept saving step with saving | ⟨returned, read, member, has⟩
      · exact .inl saving
      · refine .inr ⟨returned, has.mono ?_⟩
        rintro _ rfl
        exact ⟨(kept.tidy.writer _ member).1, Memory.Among.mono (reads _ member) _⟩
    · refine .inr ⟨stays_returned returned step, ?_⟩
      refine (has.mono fun read holds => ?_).step kept.tidy kept.locked step ?_
      · exact ⟨holds.1, holds.2.mono _⟩
      · exact fun read member =>
          ⟨((kept.step step apart).tidy.writer _ member).1, readsThen _ member⟩

/-! ### Without a task -/

theorem apart_of_ended {read : Option Memory} (ended : now.task = .ended read) (path : String) :
    now.Apart path := by
  intro save other _ closing
  rw [ended] at closing
  cases closing

theorem stays_ended {read : Option Memory} (ended : now.task = .ended read)
    (step : Step path now then_) :
    then_.task = .ended read := by
  cases step with
  | apply | refuse | lock | save | unlock => exact ended
  | cancel here | close here | finish here =>
    rw [ended] at here
    cases here

theorem length_writers (steps : Steps path now then_) :
    then_.writers.length = now.writers.length := by
  induction steps with
  | refl => rfl
  | tail _ step ih =>
    rw [← ih]
    cases step with
    | apply | refuse | lock | save | unlock => exact List.length_set
    | cancel | close | finish => rfl

theorem Kept.steps_of_ended (kept : now.Kept place) {read : Option Memory}
    (ended : now.task = .ended read) (steps : Steps place.path now then_) :
    then_.Kept place ∧ then_.task = .ended read := by
  induction steps with
  | refl => exact ⟨kept, ended⟩
  | tail _ step ih =>
    have still := stays_ended ih.2 step
    exact ⟨ih.1.step step (apart_of_ended still _), still⟩

theorem acked_of_passes (kept : now.Kept place) {read : Option Memory}
    (ended : now.task = .ended read) (applying : now.writers[writer]? = some (.applying []))
    (passes : Passes (Step place.path) now held then_) :
    then_.Kept place ∧ then_.task = .ended read ∧ then_.Acked place writer held := by
  induction passes with
  | here => exact ⟨kept, ended, List.mem_singleton_self _, .inl applying⟩
  | step _ step ih =>
    obtain ⟨kept, ended, acked⟩ := ih
    have still := stays_ended ended step
    have apart := apart_of_ended still place.path
    exact ⟨kept.step step apart, still, acked.step kept step apart⟩

theorem kept_start (sound : memory.IsSound) (hosts : Hosts files place) {calls : List Write}
    (finite : ∀ call ∈ calls, ∀ m ∈ call.metrics, m.value.isFinite) (task : Closing)
    (idle : ∀ save, task ≠ .saving save) (fresh : ∀ read, task ≠ .ended (some read)) :
    (start memory files calls task).Kept place where
  locked := locked_start sound finite files task
  tidy := tidy_start hosts memory calls idle fresh
  settled := settled_start place memory files calls task
  apart := fun _ other _ closing => absurd closing (idle other)

/-- Without a task, what is in the file was read by a writer. -/
theorem Has.shown {P : Memory → Prop} (has : now.Has place P) (untasked : now.task = .ended none) :
    ∃ read, P read ∧ now.Shows place read := by
  rcases has with shown | ⟨read, saving | ended, -⟩
  · exact shown
  · rw [untasked] at saving
    cases saving
  · rw [untasked] at ended
    cases ended

end Savers

structure SavedTogether (place : Place) (calls : List Write) (memory : Memory) (files : Files) :
    Prop where
  exclusive : ∀ now : Savers,
    Savers.Steps place.path (.start memory files calls (.ended none)) now →
    ∀ {writer other : Nat} {save save' : Saving}, now.writers[writer]? = some (.saving save) →
      now.writers[other]? = some (.saving save') → other = writer
  /-- A write that had been applied is in the file when it has returned. -/
  acknowledged : ∀ applied : Savers,
    Savers.Steps place.path (.start memory files calls (.ended none)) applied →
    ∀ {writer : Nat} {held : List Memory} {now : Savers},
      applied.writers[writer]? = some (.applying []) →
      Savers.Passes (Savers.Step place.path) applied held now →
      now.writers[writer]? = some (.returned (.ok ())) →
        ∃ contents, LoadsTo now.files place contents ∧
          ∀ key, ∃ memory ∈ held, contents.get? key = memory.lookup key
  returned : calls ≠ [] →
    ∀ last : Savers, Savers.Steps place.path (.start memory files calls (.ended none)) last →
    last.Returned → LoadsTo last.files place last.memory.contents

theorem savedTogether (sound : memory.IsSound) (hosts : Hosts files place) {calls : List Write}
    (finite : ∀ call ∈ calls, ∀ m ∈ call.metrics, m.value.isFinite) :
    SavedTogether place calls memory files := by
  have kept :
      ∀ {now : Savers}, Savers.Steps place.path (.start memory files calls (.ended none)) now →
        now.Kept place ∧ now.task = .ended none :=
    fun steps =>
      (Savers.kept_start sound hosts finite (.ended none) nofun nofun).steps_of_ended rfl steps
  refine ⟨?_, ?_, ?_⟩
  · intro now steps writer other save save' here there
    exact (kept steps).1.locked.same here there
  · intro applied steps writer held now applying passes returned
    obtain ⟨-, ended, acked⟩ := Savers.acked_of_passes (kept steps).1 (kept steps).2 applying passes
    rcases acked.phase with waits | ⟨-, ⟨save, saves⟩ | ⟨-, has⟩⟩
    · rw [returned] at waits
      cases waits
    · rw [returned] at saves
      cases saves
    · obtain ⟨read, ⟨soundRead, among⟩, shown⟩ := has.shown ended
      exact ⟨read.contents, loadsTo_of_node? soundRead shown, among.get?⟩
  · intro some last steps returned
    obtain ⟨kept, ended⟩ := kept steps
    have writers : last.writers ≠ [] := by
      rw [← List.length_pos_iff, Savers.length_writers steps, Savers.start, List.length_map]
      exact List.length_pos_iff.2 some
    have settling : last.Settling := fun writer member => .inr (returned writer member)
    have has := kept.settled.last writers settling fun save member => nomatch returned _ member
    obtain ⟨_, rfl, shown⟩ := has.shown ended
    exact loadsTo_of_node? kept.locked.sound shown

/-- A store in memory that is saved after every successful write. -/
theorem writes_reach_file (sound : memory.IsSound) (hosts : Hosts files place) :
    (∀ operations : List Operation, (∀ operation ∈ operations, operation.IsFinite) →
      SavedThrough place operations ⟨memory, files⟩) ∧
    ∀ calls : List Write, (∀ call ∈ calls, ∀ m ∈ call.metrics, m.value.isFinite) →
      SavedTogether place calls memory files :=
  ⟨fun _ finite => savedThrough finite hosts sound, fun _ finite =>
    savedTogether sound hosts finite⟩

def topFile : Place := ⟨[], "metrics.json", by decide⟩

theorem hosts_nothing (place : Place) : Hosts {} place where
  clear _ _ _ _ := nofun
  target := nofun
  beside := nofun

def counted : Write := .update ⟨"PollCount", .counter 1⟩

def reported : Write := .batch [⟨"PollCount", .counter 2⟩, ⟨"Alloc", .gauge .zero⟩]

/-- Two calls one after the other. -/
theorem writes_reach_file_in_turn :
    Memory.IsSound {} ∧ Hosts {} topFile ∧
    SavedThrough topFile [.write counted, .write reported] ⟨{}, {}⟩ ∧
      ∃ last, Savers.Steps topFile.path (.start {} {} [counted, reported] (.ended none)) last ∧
        last.Returned ∧
        LoadsTo last.files topFile last.memory.contents ∧
        last.memory.counters.get? "PollCount" = some 3 := by
  obtain ⟨through, together⟩ := writes_reach_file .empty (hosts_nothing topFile)
  have finite : ∀ call ∈ [counted, reported], ∀ m ∈ call.metrics, m.value.isFinite := by decide
  have operations : ∀ operation ∈ [.write counted, .write reported], Operation.IsFinite operation :=
    List.forall_mem_cons.2 ⟨rfl, List.forall_mem_singleton.2 (finite reported (by decide))⟩
  have sums : ((Memory.storage.write reported (Memory.storage.write counted {}).2).2).counters.get?
      "PollCount" =
      some 3 := by decide +kernel
  rcases one : Memory.storage.write counted {} with ⟨fault | ⟨⟩, first⟩
  · cases one
  rcases two : Memory.storage.write reported first with ⟨fault | ⟨⟩, second⟩
  · cases one
    cases two
  rw [one, two] at sums
  rcases saves : save topFile.path (.ok first.contents) {} with ⟨count, files⟩
  rcases savesAgain : save topFile.path (.ok second.contents) files with ⟨count', files'⟩
  have counts := @Savers.steps_write topFile.path (.start {} {} [counted, reported] (.ended none)) 0
    counted rfl rfl _ _
    (write_of_ok one saves)
  have reports := @Savers.steps_write topFile.path
    ⟨first, files, none, [.returned (.ok ()), .applying reported.metrics], .ended none⟩ 1 reported
      rfl rfl _ _
    (write_of_ok two savesAgain)
  have returned :
      Savers.Returned ⟨second, files', none, [.returned (.ok ()), .returned (.ok ())],
        .ended none⟩ := by
    simp [Savers.Returned]
  have steps := counts.trans reports
  refine ⟨.empty, hosts_nothing _, through _ operations, _, steps, returned, ?_, sums⟩
  exact (together _ finite).returned (by decide) _ steps returned

end Telemetry.Snapshot
