import Mathlib.Tactic.Tauto
import Telemetry.Agent.Timeline
import Telemetry.Proofs.Agent.Session

namespace Telemetry.Agent

variable {σ : Type} {settings : Settings} {transport : Transport σ} {alive : Bool} {now : Nat}
  {state before after : State σ} {session : Session Task}

/-- The jobs that the transport has been called with, last first. -/
def State.sent (state : State σ) : List Job := state.sends.map (·.2)

/-- A session is in the state that a run has at some instant, while it samples or not. -/
structure Shows (settings : Settings) (alive : Bool) (session : Session Task) (state : State σ) :
    Prop where
  sampler : session.sampler = state.sampler
  waiting : session.waiting = state.waiting
  pool : session.pool = state.pool
  sampling : session.sampling = alive
  reporting : session.reporting = state.nextReport.isSome
  placed : ∀ job, job ∈ session.put ↔ job ∈ state.pool.queue ∨ job ∈ state.sent
  busy : ∀ task : Task, .busy task ∈ state.pool.workers → task.job ∈ state.sent
  workers : state.pool.workers.length = settings.workers
  staffed : settings.workers = 0 → state.waiting = []
  stopped : state.nextReport = none → state.waiting = []
  ended : alive = true ∨ state.nextReport = none

def Leads (settings : Settings) (alive : Bool) (before after : State σ) : Prop :=
  ∀ session, Shows settings alive session before →
    ∃ next, Steps settings.batched session next ∧ Shows settings alive next after

theorem Leads.refl (state : State σ) : Leads settings alive state state :=
  fun session shows => ⟨session, .refl, shows⟩

theorem Leads.trans {between : State σ} (first : Leads settings alive before between)
    (second : Leads settings alive between after) : Leads settings alive before after := by
  intro session shows
  obtain ⟨middle, front, shows⟩ := first session shows
  obtain ⟨next, back, shows⟩ := second middle shows
  exact ⟨next, front.trans back, shows⟩

/-! ### Workers -/

/-- A worker turns to a job, which leaves the queue if it is there, and nothing else changes. -/
structure Handles (job : Job) (before after : Pool Job Task) : Prop where
  works : Relation.ReflTransGen Pool.Works before after
  queue : ∀ other, other ∈ after.queue ∨ other = job ↔ other ∈ before.queue ∨ other = job
  busy : ∀ task : Task, .busy task ∈ after.workers → .busy task ∈ before.workers ∨ task.job = job

section

variable {pool next last : Pool Job Task} {worker : Nat} {task : Task} {job : Job}

theorem Handles.trans (first : Handles job pool next) (second : Handles job next last) :
    Handles job pool last where
  works := first.works.trans second.works
  queue other := (second.queue other).trans (first.queue other)
  busy task member := by
    rcases second.busy task member with member | same
    · exact first.busy task member
    · exact .inr same

theorem handles_take {rest : List Job} (queued : pool.queue = task.job :: rest)
    (taken : pool.take worker (fun _ => task) = some next) : Handles task.job pool next := by
  have works : Pool.Works pool next := .take taken
  obtain ⟨first, others, -, found, rfl⟩ := Pool.take_eq_some_iff.1 taken
  obtain ⟨rfl, rfl⟩ := List.cons_eq_cons.1 (queued.symm.trans found)
  refine ⟨.single works, fun other => ?_, fun other member => ?_⟩
  · rw [queued, List.mem_cons]
    tauto
  · rcases List.mem_or_eq_of_mem_set member with member | same
    · exact .inl member
    · cases same
      exact .inr rfl

theorem handles_resume {attempt due : Nat} {delays : Retry.Schedule}
    (resumed : pool.resume worker ⟨job, attempt, due, delays⟩ = some next) :
    Handles job pool next := by
  have works : Pool.Works pool next := .resume resumed
  obtain ⟨-, rfl⟩ := Pool.resume_eq_some_iff.1 resumed
  refine ⟨.single works, fun _ => Iff.rfl, fun other member => ?_⟩
  rcases List.mem_or_eq_of_mem_set member with member | same
  · exact .inl member
  · cases same
    exact .inr rfl

theorem handles_finish (job : Job) (finished : pool.finish worker = some next) :
    Handles job pool next := by
  have works : Pool.Works pool next := .finish finished
  obtain ⟨-, rfl⟩ := Pool.finish_eq_some_iff.1 finished
  refine ⟨.single works, fun _ => Iff.rfl, fun other member => ?_⟩
  rcases List.mem_or_eq_of_mem_set member with member | same
  · exact .inl member
  · cases same

theorem handles_getD {step : Option (Pool Job Task)}
    (handles : ∀ next, step = some next → Handles job pool next) :
    Handles job pool (step.getD pool) := by
  cases step with
  | none => exact ⟨.refl, fun _ => Iff.rfl, fun _ => .inl⟩
  | some next => exact handles next rfl

end

theorem attempt_eq (worker : Nat) (task : Task) (state : State σ) :
    ∃ pool world, Handles task.job state.pool pool ∧
      attempt transport now worker task state =
        { state with pool, world, sends := (now, task.job) :: state.sends } := by
  unfold attempt
  refine ⟨_, _, ?_, rfl⟩
  apply handles_getD
  intro next stepped
  split at stepped
  · exact handles_finish task.job stepped
  · exact handles_resume stepped

theorem sent_attempt (worker : Nat) (task : Task) (state : State σ) :
    (attempt transport now worker task state).sent = task.job :: state.sent := by
  obtain ⟨pool, world, -, attempted⟩ := @attempt_eq σ transport now worker task state
  rw [attempted]
  rfl

theorem steps_of_works {pool : Pool Job Task}
    (works : Relation.ReflTransGen Pool.Works session.pool pool) :
    Steps settings.batched session { session with pool } :=
  works.lift (fun pool => { session with pool }) fun _ _ works => .work works

theorem leads_handled {job : Job} {pool : Pool Job Task} (handles : Handles job state.pool pool)
    (put : job ∈ state.pool.queue ∨ job ∈ state.sent) (world : σ) :
    Leads settings alive state { state with pool, world, sends := (now, job) :: state.sends } := by
  intro session shows
  refine ⟨{ session with pool }, steps_of_works (shows.pool ▸ handles.works), ?_⟩
  refine { shows with pool := rfl, placed := ?_, busy := ?_, workers := ?_ }
  · intro other
    rw [State.sent, List.map_cons, List.mem_cons, ← or_assoc, handles.queue other,
      shows.placed other]
    constructor
    · rintro (queued | sent)
      · exact .inl (.inl queued)
      · exact .inr sent
    · rintro ((queued | rfl) | sent)
      · exact .inl queued
      · exact put
      · exact .inr sent
  · intro task member
    rw [State.sent, List.map_cons, List.mem_cons]
    rcases handles.busy task member with busy | same
    · exact .inr (shows.busy task busy)
    · exact .inl same
  · exact (Pool.length_workers handles.works).trans shows.workers

theorem leads_attempt {worker : Nat} {task : Task} (begun : task.job ∈ state.sent) :
    Leads settings alive state (attempt transport now worker task state) := by
  obtain ⟨pool, world, handles, attempted⟩ := @attempt_eq σ transport now worker task state
  rw [attempted]
  exact leads_handled handles (.inr begun) world

theorem leads_enqueue (put : enqueue? state = some after) : Leads settings alive state after := by
  unfold enqueue? at put
  cases waits : state.waiting with
  | nil =>
    rw [waits] at put
    cases put
  | cons job rest =>
    rw [waits] at put
    obtain ⟨pool, room, rfl⟩ := Option.map_eq_some_iff.1 put
    intro session shows
    -- Without workers no report is left waiting.
    have staffed : session.pool.workers ≠ [] := by
      intro none
      have few := shows.staffed (by rw [← shows.workers, ← shows.pool, none, List.length_nil])
      rw [few] at waits
      cases waits
    refine ⟨_, .single (.put staffed (shows.waiting.trans waits) (shows.pool ▸ room)), ?_⟩
    obtain ⟨-, rfl⟩ := Pool.put_eq_some_iff.1 room
    refine { shows with waiting := rfl, pool := rfl, placed := ?_, staffed := ?_, stopped := ?_ }
    · intro other
      rw [List.mem_cons, shows.placed, List.mem_append, List.mem_singleton]
      tauto
    · intro none
      rw [shows.staffed none] at waits
      cases waits
    · intro ended
      rw [shows.stopped ended] at waits
      cases waits

theorem leads_serve (served : serve? settings transport now state = some after) :
    Leads settings alive state after := by
  unfold serve? at served
  split at served
  case h_1 worker job rest idle queued =>
    obtain ⟨taken, took, rfl⟩ := Option.map_eq_some_iff.1 served
    obtain ⟨pool, world, handles, attempted⟩ :=
      @attempt_eq σ transport now worker ⟨job, 1, now, settings.schedule⟩
        { state with pool := taken }
    rw [attempted]
    have first : Handles job state.pool taken := handles_take queued took
    apply leads_handled (first.trans handles) (.inl ?_) world
    rw [queued]
    exact List.mem_cons_self
  case h_2 => cases served

theorem leads_settle (bound : Nat) (state : State σ) :
    Leads settings alive state (settle settings transport now bound state) := by
  induction bound generalizing state with
  | zero => exact .refl state
  | succ bound ih =>
    unfold settle
    rcases step : (enqueue? state).or (serve? settings transport now state) with _ | next
    · exact .refl state
    · rcases Option.or_eq_some_iff.1 step with put | ⟨-, served⟩
      · exact (leads_enqueue put).trans (ih next)
      · exact (leads_serve served).trans (ih next)

theorem leads_settled (state : State σ) :
    Leads settings alive state (settled settings transport now state) :=
  leads_settle _ state

theorem leads_resumeDue (state : State σ) :
    Leads settings alive state (resumeDue transport now state) := by
  intro session shows
  have begun : ∀ input ∈ state.pool.tasks, input.2.job ∈ state.sent := fun input member =>
    shows.busy input.2 (Pool.mem_workers_of_mem_tasks member)
  -- The tasks are listed before the first of them is attempted, and what is sent meanwhile only
  -- grows.
  unfold resumeDue
  generalize state.pool.tasks = inputs at begun
  induction inputs generalizing state session with
  | nil => exact ⟨session, .refl, shows⟩
  | cons input rest ih =>
    obtain ⟨job, others⟩ := List.forall_mem_cons.1 begun
    rw [List.foldl_cons]
    dsimp only
    split
    · have attempted : Leads settings alive state (attempt transport now input.1 input.2 state) :=
        leads_attempt job
      obtain ⟨next, first, shows⟩ := attempted session shows
      obtain ⟨last, resumed, shows⟩ := ih _ next shows fun input member => by
        rw [sent_attempt]
        exact List.mem_cons_of_mem _ (others input member)
      exact ⟨last, first.trans resumed, shows⟩
    · exact ih state session shows others

/-! ### Loops -/

theorem leads_sampleIfDue (state : State σ) :
    Leads settings true state (sampleIfDue settings now state) := by
  unfold sampleIfDue
  split
  · intro session shows
    refine ⟨_, .single (.sample shows.sampling), ?_⟩
    exact { shows with sampler := congrArg Sampler.sample shows.sampler }
  · exact .refl state

theorem leads_reportIfDue (state : State σ) :
    Leads settings true state (reportIfDue settings now state) := by
  unfold reportIfDue
  split
  case h_1 due scheduled free =>
    by_cases isDue : due ≤ now
    case neg =>
      rw [if_neg isDue]
      exact .refl state
    rw [if_pos isDue]
    intro session shows
    have alive : session.reporting = true := by rw [shows.reporting, scheduled, Option.isSome_some]
    have taken : Step settings.batched session _ := .report alive (shows.waiting.trans free)
    rw [shows.sampler] at taken
    generalize state.sampler.takeReport = reported at taken
    obtain ⟨report, sampler⟩ := reported
    dsimp only at taken ⊢
    split
    case isTrue empty =>
      rw [Job.ofTaken, if_pos empty] at taken
      exact ⟨_, .single taken, { shows with
        sampler := rfl, waiting := free.symm, reporting := alive, stopped := fun _ => free, ended :=
          .inl rfl }⟩
    case isFalse filled =>
      rw [Job.ofTaken, if_neg filled] at taken
      split
      case isTrue unstaffed =>
        have nobody : session.pool.workers = [] := by
          rw [shows.pool]
          exact List.eq_nil_of_length_eq_zero (shows.workers.trans unstaffed)
        have ended := (Relation.ReflTransGen.single taken).tail
          (.stopReporting alive (.inr ⟨nobody, Job.ofReport_ne_nil filled⟩))
        exact ⟨_, ended, { shows with
          sampler := rfl, waiting := free.symm, reporting := rfl, stopped := fun _ => free, ended :=
            .inl rfl }⟩
      case isFalse staffed =>
        exact ⟨_, .single taken, { shows with
          sampler := rfl
          waiting := rfl
          reporting := alive
          staffed := fun none => absurd none staffed
          stopped := fun none => absurd none (Option.some_ne_none _)
          ended := .inl rfl }⟩
  case h_2 => exact .refl state

theorem leads_instant (state : State σ) :
    Leads settings true state (instant settings transport now state) :=
  (((leads_sampleIfDue state).trans (leads_resumeDue _)).trans (leads_settled _)).trans
    ((leads_reportIfDue _).trans (leads_settled _))

theorem leads_running (cancel bound : Nat) (state : State σ) :
    Leads settings true state (running settings transport cancel bound state) := by
  induction bound generalizing state with
  | zero => exact .refl state
  | succ bound ih =>
    unfold running
    dsimp only
    split
    · exact .refl state
    · exact (leads_instant state).trans (ih _)

theorem leads_draining (bound now : Nat) (state : State σ) :
    Leads settings false state (draining settings transport bound now state).2 := by
  induction bound generalizing now state with
  | zero => exact .refl state
  | succ bound ih =>
    have delivered :
        Leads settings false state
          (settled settings transport now (resumeDue transport now state)) :=
      (leads_resumeDue state).trans (leads_settled _)
    unfold draining
    dsimp only
    split
    · exact delivered.trans (ih _ _)
    · exact delivered

theorem shows_cancelled (shows : Shows settings true session state) :
    ∃ next, Steps settings.batched session next ∧ Shows settings false next (cancelled state) := by
  have unsampled := (Relation.ReflTransGen.single (.cancel : Step settings.batched session _)).tail
    (.stopSampling rfl)
  have closed : Shows settings false
      { session with
        sampling := false, reporting := false, cancelled := true, waiting := [], pool :=
          session.pool.close }
      (cancelled state) :=
    { sampler := shows.sampler
      waiting := rfl
      pool := congrArg Pool.close shows.pool
      sampling := rfl
      reporting := rfl
      placed := shows.placed
      busy := shows.busy
      workers := shows.workers
      staffed := fun _ => rfl
      stopped := fun _ => rfl
      ended := .inr rfl }
  cases alive : session.reporting with
  | true =>
    refine ⟨_, (unsampled.tail (.stopReporting alive (.inl rfl))).tail (.close rfl), ?_⟩
    exact { closed with }
  | false =>
    -- Reporting has ended before: there are no workers.
    have ended : state.nextReport = none := by
      rw [← Option.isNone_iff_eq_none, ← Option.isSome_eq_false_iff, ← shows.reporting, alive]
    refine ⟨_, unsampled.tail (.close alive), ?_⟩
    exact { closed with waiting := shows.waiting.trans (shows.stopped ended), reporting := alive }

/-- The samples, the queue and the workers at the end of a run are those of a session that has
stopped, and a job was put on its queue just if it is there or the transport was called with it. -/
theorem run_is_session (settings : Settings) (transport : Transport σ) (cancel : Nat)
    (collectors : List Collector) (world : σ) :
    let final := (run settings transport cancel collectors world).final
    ∃ session : Session Task,
      Steps settings.batched (.start collectors settings.capacity settings.workers) session ∧
      session.sampling = false ∧ session.reporting = false ∧
      session.sampler = final.sampler ∧ session.pool = final.pool ∧
      ∀ job, job ∈ session.put ↔ job ∈ final.pool.queue ∨ job ∈ final.sent := by
  intro final
  let started : State σ := ⟨⟨collectors, 0, {}⟩, 0, some settings.report, [],
    .start settings.capacity settings.workers, world, []⟩
  have starts :
      Shows settings true (.start collectors settings.capacity settings.workers) started :=
    { sampler := rfl
      waiting := rfl
      pool := rfl
      sampling := rfl
      reporting := rfl
      placed := fun _ => or_self_iff.symm
      busy := fun _ member => nomatch List.eq_of_mem_replicate member
      workers := List.length_replicate
      staffed := fun _ => rfl
      stopped := fun none => absurd none (Option.some_ne_none _)
      ended := .inl rfl }
  obtain ⟨ran, before, shows⟩ := leads_running cancel (cancel + 1) started _ starts
  obtain ⟨stopped, stopping, shows⟩ := shows_cancelled shows
  have drained :
      Leads settings false (cancelled (running settings transport cancel (cancel + 1) started))
        final := by
    unfold final run
    exact leads_draining _ cancel _
  obtain ⟨session, after, shows⟩ := drained stopped shows
  have reporting : session.reporting = false := by
    rw [shows.reporting, shows.ended.resolve_left (by decide), Option.isSome_none]
  exact ⟨session, (before.trans stopping).trans after, shows.sampling, reporting, shows.sampler,
    shows.pool, shows.placed⟩

/-- Two gauges and a queue with room for one job: the first one is under way, the second one is
queued, and the count of three samples waits when the run is cancelled. -/
example :
    let settings :
    Settings := { poll := 2000, report := 5000, workers := 1, capacity := 1, batched := false }
    let transport : Transport Unit := fun job _ =>
      (if job.metrics.any (·.id == "a") then .error .timeout else .ok (), ())
    let readings : Collector := fun _ => [⟨"a", .gauge .zero⟩, ⟨"b", .gauge .zero⟩]
    let final := (run settings transport 5500 [readings] ()).final
    final.sampler.taken = 3 ∧ final.sampler.samples.pending = 0 ∧
      ∀ job ∈ final.sent, ∀ m ∈ job.metrics, m.id ≠ pollCount := by
  decide +kernel

end Telemetry.Agent
