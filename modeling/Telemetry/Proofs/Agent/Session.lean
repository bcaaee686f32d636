import Telemetry.Agent.Delivery
import Telemetry.Agent.Samples
import Telemetry.Proofs.Agent.Pool

/-!
An agent as steps that its loops and its workers take in any order. Main statement: the counts of
samples in the jobs that were put on the queue, the count that is pending and the one that was given
up make the number of samples taken; and what is given up is the whole count of one report.
-/
namespace Telemetry

/-! ### Counts of samples -/

def Metric.polls (m : Metric) : Int64 :=
  match m.value with
  | .counter delta => if m.id = pollCount then delta else 0
  | .gauge _ => 0

namespace Job

def polls (job : Job) : Int64 := (job.metrics.map Metric.polls).sum

/-- The jobs of a report that is taken; there are none for an empty one. -/
def ofTaken (batched : Bool) (report : List Metric) : List Job :=
  if report.isEmpty then [] else ofReport batched report

theorem ofReport_ne_nil {batched : Bool} {report : List Metric} (filled : ¬report.isEmpty) :
    ofReport batched report ≠ [] := by
  unfold ofReport
  split
  · exact List.cons_ne_nil _ _
  · rwa [Ne, List.map_eq_nil_iff, ← List.isEmpty_iff]

end Job

def polls (jobs : List Job) : Int64 := (jobs.map Job.polls).sum

@[simp] theorem polls_nil : polls [] = 0 := rfl

@[simp] theorem polls_cons (job : Job) (jobs : List Job) :
    polls (job :: jobs) = job.polls + polls jobs :=
  List.sum_cons

theorem polls_append (front back : List Job) :
    polls (front ++ back) = polls front + polls back := by
  rw [polls, List.map_append, List.sum_append]
  rfl

theorem polls_singles (ms : List Metric) :
    polls (ms.map Job.single) = (ms.map Metric.polls).sum := by
  induction ms with
  | nil => rfl
  | cons m rest ih =>
    rw [List.map_cons, polls_cons, ih, List.map_cons, List.sum_cons, Job.polls, Job.metrics,
      List.map_singleton, List.sum_singleton]

theorem polls_ofTaken (batched : Bool) (report : List Metric) :
    polls (Job.ofTaken batched report) = (report.map Metric.polls).sum := by
  cases report with
  | nil => rfl
  | cons m rest =>
    rw [Job.ofTaken, List.isEmpty_cons, if_neg (by decide)]
    cases batched with
    | true =>
      rw [Job.ofReport, if_pos rfl, polls_cons, polls_nil, Int64.add_zero]
      rfl
    | false =>
      rw [Job.ofReport, if_neg (by decide)]
      exact polls_singles _

theorem sum_polls_eq_zero {ms : List Metric} (zeros : ∀ m ∈ ms, m.polls = 0) :
    (ms.map Metric.polls).sum = 0 := by
  induction ms with
  | nil => rfl
  | cons m rest ih =>
    simp only [List.forall_mem_cons] at zeros
    rw [List.map_cons, List.sum_cons, zeros.1, ih zeros.2]
    rfl

theorem polls_eq_zero {jobs : List Job} (zeros : ∀ job ∈ jobs, job.polls = 0) : polls jobs = 0 := by
  induction jobs with
  | nil => rfl
  | cons job rest ih =>
    simp only [List.forall_mem_cons] at zeros
    rw [polls_cons, zeros.1, ih zeros.2]
    rfl

namespace Samples

variable {samples : Samples}

def due (samples : Samples) : Int64 := if 0 < samples.pending then samples.pending else 0

theorem due_add_reported (samples : Samples) :
    samples.due + samples.reported.pending = samples.pending := by
  unfold due reported
  by_cases some : 0 < samples.pending
  · rw [if_pos some, if_pos some, Int64.add_zero]
  · rw [if_neg some, if_neg some, Int64.zero_add]

theorem report_eq (samples : Samples) :
    ∃ gauges : List Metric, (∀ m ∈ gauges, m.polls = 0) ∧
      samples.report = gauges ++
        if 0 < samples.pending then [⟨pollCount, .counter samples.pending⟩] else [] := by
  refine ⟨_, ?_, rfl⟩
  intro m member
  obtain ⟨⟨id, reading⟩, -, rfl⟩ := List.mem_map.1 member
  rfl

theorem polls_of_mem_dropLast {m : Metric} (member : m ∈ samples.report.dropLast) :
    m.polls = 0 := by
  obtain ⟨gauges, zeros, parts⟩ := samples.report_eq
  apply zeros m
  rw [parts] at member
  by_cases some : 0 < samples.pending
  · rwa [if_pos some, List.dropLast_concat] at member
  · rw [if_neg some, List.append_nil] at member
    exact List.dropLast_subset _ member

theorem polls_report (samples : Samples) : (samples.report.map Metric.polls).sum = samples.due := by
  obtain ⟨gauges, zeros, parts⟩ := samples.report_eq
  rw [parts, List.map_append, List.sum_append, sum_polls_eq_zero zeros, Int64.zero_add, due]
  by_cases some : 0 < samples.pending
  · rw [if_pos some, if_pos some, List.map_singleton, List.sum_singleton]
    rfl
  · rw [if_neg some, if_neg some]
    rfl

/-- Of the jobs of a report, only the last one counts samples. -/
theorem polls_of_mem_dropLast_ofTaken {batched : Bool} {job : Job}
    (member : job ∈ (Job.ofTaken batched samples.report).dropLast) : job.polls = 0 := by
  unfold Job.ofTaken Job.ofReport at member
  split at member
  · cases member
  split at member
  · cases member
  · rw [← List.map_dropLast] at member
    obtain ⟨m, inside, rfl⟩ := List.mem_map.1 member
    rw [Job.polls, Job.metrics, List.map_singleton, List.sum_singleton]
    exact polls_of_mem_dropLast inside

theorem polls_of_suffix {batched : Bool} {jobs : List Job}
    (part : jobs <:+ Job.ofTaken batched samples.report) (some : jobs ≠ []) :
    polls jobs = samples.due := by
  obtain ⟨front, split⟩ := part
  have nothing : polls front = 0 := by
    apply polls_eq_zero
    intro job member
    apply polls_of_mem_dropLast_ofTaken
    rw [← split, List.dropLast_append_of_ne_nil some]
    exact List.mem_append_left _ member
  have total : polls front + polls jobs = samples.due := by
    rw [← polls_append, split, polls_ofTaken, polls_report]
  rwa [nothing, Int64.zero_add] at total

end Samples

namespace Agent

/-! ### Steps -/

/-- An agent between two steps, with what has become of the jobs of its reports. -/
structure Session (τ : Type) where
  sampler : Sampler
  /-- Jobs of a report that wait for room in the queue. -/
  waiting : List Job := []
  pool : Pool Job τ
  sampling : Bool := true
  reporting : Bool := true
  cancelled : Bool := false
  /-- Every job that was put on the queue, last first. -/
  put : List Job := []
  /-- The jobs that still waited when reporting stopped. -/
  dropped : List Job := []

variable {τ : Type} {batched : Bool}

def Session.start (collectors : List Collector) (capacity workers : Nat) : Session τ :=
  { sampler := ⟨collectors, 0, {}⟩, pool := .start capacity workers }

/-- What can happen next. A loop may go on for a while after the cancellation, as long as it has not
looked; the report loop also stops when nobody is left to take jobs. -/
inductive Step (batched : Bool) (now : Session τ) : Session τ → Prop
  | sample (alive : now.sampling = true) :
      Step batched now { now with sampler := now.sampler.sample }
  | report (alive : now.reporting = true) (free : now.waiting = []) :
      Step batched now
        { now with
          sampler := now.sampler.takeReport.2
          waiting := Job.ofTaken batched now.sampler.takeReport.1 }
  | put {job : Job} {rest : List Job} {pool : Pool Job τ} (staffed : now.pool.workers ≠ [])
      (first : now.waiting = job :: rest) (room : now.pool.put job = some pool) :
      Step batched now { now with waiting := rest, pool, put := job :: now.put }
  | work {pool : Pool Job τ} (works : Pool.Works now.pool pool) : Step batched now { now with pool }
  | cancel : Step batched now { now with cancelled := true }
  | stopSampling (cancelled : now.cancelled = true) :
      Step batched now { now with sampling := false }
  | stopReporting (alive : now.reporting = true)
      (why : now.cancelled = true ∨ now.pool.workers = [] ∧ now.waiting ≠ []) :
      Step batched now { now with reporting := false, waiting := [], dropped := now.waiting }
  | close (stopped : now.reporting = false) : Step batched now { now with pool := now.pool.close }

abbrev Steps (batched : Bool) : Session τ → Session τ → Prop := Relation.ReflTransGen (Step batched)

namespace Session

/-- Every sample is in one place: a job that was put, waits or was dropped, or the count that is
pending. -/
structure Conserved (batched : Bool) (session : Session τ) : Prop where
  total : polls session.put + polls session.waiting + polls session.dropped
    + session.sampler.samples.pending = Int64.ofNat session.sampler.taken
  undropped : session.reporting = true → session.dropped = []
  stopped : session.reporting = false → session.waiting = []
  waiting : ∃ samples : Samples, session.waiting <:+ Job.ofTaken batched samples.report
  dropped : ∃ samples : Samples, session.dropped <:+ Job.ofTaken batched samples.report

theorem conserved_start (collectors : List Collector) (capacity workers : Nat) :
    (start collectors capacity workers : Session τ).Conserved batched where
  total := rfl
  undropped _ := rfl
  stopped _ := rfl
  waiting := ⟨{}, List.nil_suffix⟩
  dropped := ⟨{}, List.nil_suffix⟩

theorem Conserved.step {now next : Session τ} (conserved : now.Conserved batched)
    (step : Step batched now next) :
    next.Conserved batched := by
  obtain ⟨total, undropped, stopped, waiting, dropped⟩ := conserved
  cases step with
  | sample alive =>
    refine ⟨?_, undropped, stopped, waiting, dropped⟩
    simp only [Sampler.sample, Samples.record, Int64.ofNat_add]
    rw [← total]
    grind
  | report alive free =>
    refine ⟨?_, undropped, ?_, ⟨now.sampler.samples, List.suffix_refl _⟩, dropped⟩
    · have parts := now.sampler.samples.due_add_reported
      simp only [Sampler.takeReport, polls_ofTaken, Samples.polls_report, ← total, free]
      grind [polls_nil]
    · intro stopped
      rw [alive] at stopped
      cases stopped
  | put staffed first room =>
    obtain ⟨samples, part⟩ := waiting
    rw [first] at part total stopped
    refine ⟨?_, undropped, ?_, ⟨samples, (List.suffix_cons _ _).trans part⟩, dropped⟩
    · rw [← total, polls_cons, polls_cons]
      grind
    · intro still
      cases stopped still
  | work works => exact ⟨total, undropped, stopped, waiting, dropped⟩
  | cancel => exact ⟨total, undropped, stopped, waiting, dropped⟩
  | stopSampling cancelled => exact ⟨total, undropped, stopped, waiting, dropped⟩
  | stopReporting alive why =>
    -- What waits for room is dropped here, and only here.
    refine ⟨?_, by simp, fun _ => rfl, ⟨{}, List.nil_suffix⟩, waiting⟩
    rw [← total, undropped alive, polls_nil]
    grind
  | close ended => exact ⟨total, undropped, stopped, waiting, dropped⟩

theorem Conserved.steps {now later : Session τ} (conserved : now.Conserved batched)
    (steps : Steps batched now later) :
    later.Conserved batched := by
  induction steps with
  | refl => exact conserved
  | tail _ step ih => exact ih.step step

structure Returned (session : Session τ) : Prop where
  sampling : session.sampling = false
  reporting : session.reporting = false
  left : ∀ worker ∈ session.pool.workers, worker = .gone

end Session

def constant (id : String) : Collector := fun _ => [⟨id, .gauge .zero⟩]

/-- Once reporting has stopped, the jobs on the queue and the pending count have every sample,
unless jobs were dropped: then the whole count of their report is missing. -/
theorem polls_conserved {collectors : List Collector} {capacity workers : Nat} {session : Session τ}
    (steps : Steps batched (.start collectors capacity workers) session)
    (stopped : session.reporting = false) :
    let reported := polls session.put + session.sampler.samples.pending
    (session.dropped = [] → reported = Int64.ofNat session.sampler.taken) ∧
    (session.dropped ≠ [] →
      ∃ samples : Samples, session.dropped <:+ Job.ofTaken batched samples.report ∧
      reported + samples.due = Int64.ofNat session.sampler.taken) := by
  intro reported
  have conserved := (Session.conserved_start collectors capacity workers).steps steps
  have total := conserved.total
  rw [conserved.stopped stopped, polls_nil] at total
  constructor
  · intro nothing
    rw [nothing, polls_nil] at total
    grind
  · intro something
    obtain ⟨samples, part⟩ := conserved.dropped
    refine ⟨samples, part, ?_⟩
    rw [Samples.polls_of_suffix part something] at total
    grind

/-- A queue with room for the gauge and the count of a report. -/
theorem polls_conserved_with_room :
    ∃ session : Session Unit, Steps false (.start [constant "a"] 2 1) session ∧
      session.reporting = false ∧
      polls session.put = 1 ∧
      polls session.put + session.sampler.samples.pending = Int64.ofNat session.sampler.taken := by
  have start : Steps false (.start [constant "a"] 2 1 : Session Unit) _ := .refl
  have waiting := (start.tail (.sample rfl)).tail (.report rfl rfl)
  have put := (waiting.tail (.put (by decide) rfl rfl)).tail (.put (by decide) rfl rfl)
  have stopped := (put.tail .cancel).tail (.stopReporting rfl (.inl rfl))
  exact ⟨_, stopped, rfl, by decide, (polls_conserved stopped rfl).1 rfl⟩

/-- A queue with room for the gauge alone, so that its count waits when the agent is cancelled. -/
theorem polls_not_conserved :
    ¬ ∀ session : Session Unit, Steps false (.start [constant "a"] 1 1) session → session.Returned →
      polls session.put + session.sampler.samples.pending = Int64.ofNat session.sampler.taken := by
  intro conserved
  have start : Steps false (.start [constant "a"] 1 1 : Session Unit) _ := .refl
  have waiting := (start.tail (.sample rfl)).tail (.report rfl rfl)
  have put := waiting.tail (.put (by decide) rfl rfl)
  have stopped := ((put.tail .cancel).tail (.stopSampling rfl)).tail (.stopReporting rfl (.inl rfl))
  have closed := stopped.tail (.close rfl)
  have taken := closed.tail (.work (@Pool.Works.take _ _ _ 0 (fun _ => ()) _ rfl))
  have finished := taken.tail (.work (@Pool.Works.finish _ _ _ 0 _ rfl))
  have left := finished.tail (.work (@Pool.Works.leave _ _ _ 0 _ rfl))
  have equal := conserved _ left ⟨rfl, rfl, by decide⟩
  revert equal
  decide

end Agent
end Telemetry
