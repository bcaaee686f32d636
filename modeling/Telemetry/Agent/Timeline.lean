import Telemetry.Agent.Delivery
import Telemetry.Agent.Pool
import Telemetry.Agent.Samples

/-!
A whole agent over time. It samples at every poll instant and reports at every report instant; a
report's jobs go into the queue as room is found, and workers deliver them, waiting out the delays
between attempts. When it is cancelled, sampling and reporting stop, jobs that wait for room are
dropped, and what is queued is still delivered. Time is in milliseconds, and what takes no time
happens at once.
-/
namespace Telemetry.Agent

structure Settings where
  poll : Nat
  report : Nat
  workers : Nat
  capacity : Nat
  batched : Bool
  schedule : Retry.Schedule := Retry.standard

/-- A delivery between two attempts: the number of the next one, when it is due, and what is left of
the schedule. -/
structure Task where
  job : Job
  attempt : Nat
  due : Nat
  delays : Retry.Schedule
  deriving Repr

structure State (σ : Type) where
  sampler : Sampler
  nextSample : Nat
  /-- When the next report is due; none if there is nobody left to take jobs. -/
  nextReport : Option Nat
  /-- Jobs of a report that wait for room in the queue. -/
  waiting : List Job
  pool : Pool Job Task
  world : σ
  /-- Every call of the transport with its instant, last first. -/
  sends : List (Nat × Job)

variable {σ : Type}

/-- An attempt of a busy worker at `now`: it finishes, or it waits for the next one. -/
def attempt (transport : Transport σ) (now worker : Nat) (task : Task) (state : State σ) :
    State σ :=
  let (result, world) := transport task.job state.world
  let pool := match Retry.next SendFault.isTransient task.attempt task.delays result with
    | .finished _ => state.pool.finish worker
    | .again delay rest =>
      state.pool.resume worker ⟨task.job, task.attempt + 1, now + delay, rest⟩
  { state with pool := pool.getD state.pool, world, sends := (now, task.job) :: state.sends }

def enqueue? (state : State σ) : Option (State σ) :=
  match state.waiting with
  | job :: rest => (state.pool.put job).map fun pool => { state with pool, waiting := rest }
  | [] => none

def serve? (settings : Settings) (transport : Transport σ) (now : Nat) (state : State σ) :
    Option (State σ) :=
  match state.pool.idle?, state.pool.queue with
  | some worker, job :: _ =>
    let task : Task := ⟨job, 1, now, settings.schedule⟩
    (state.pool.take worker fun _ => task).map fun pool =>
      attempt transport now worker task { state with pool }
  | _, _ => none

/-- What happens at once: waiting jobs go into the queue, and idle workers take jobs. -/
def settle (settings : Settings) (transport : Transport σ) (now : Nat) : Nat → State σ → State σ
  | 0, state => state
  | bound + 1, state =>
    match (enqueue? state).or (serve? settings transport now state) with
    | some state => settle settings transport now bound state
    | none => state

def settled (settings : Settings) (transport : Transport σ) (now : Nat) (state : State σ) :
    State σ :=
  settle settings transport now (2 * state.waiting.length + state.pool.queue.length + 1) state

def sampleIfDue (settings : Settings) (now : Nat) (state : State σ) : State σ :=
  if state.nextSample = now then
    { state with sampler := state.sampler.sample, nextSample := now + settings.poll }
  else state

/-- Takes a report if one is due and none waits. One that is late by more than 5 ms puts off the
ones after it. With no workers the queue is gone, and reporting ends. -/
def reportIfDue (settings : Settings) (now : Nat) (state : State σ) : State σ :=
  match state.nextReport, state.waiting with
  | some due, [] =>
    if due ≤ now then
      let (report, sampler) := state.sampler.takeReport
      let next := if due + 5 < now then now + settings.report else due + settings.report
      if report.isEmpty then { state with sampler, nextReport := some next }
      else if settings.workers = 0 then { state with sampler, nextReport := none }
      else
        { state with
          sampler, nextReport := some next, waiting := Job.ofReport settings.batched report }
    else state
  | _, _ => state

def resumeDue (transport : Transport σ) (now : Nat) (state : State σ) : State σ :=
  state.pool.tasks.foldl (fun state (worker, task) =>
    if task.due = now then attempt transport now worker task state else state) state

def instant (settings : Settings) (transport : Transport σ) (now : Nat) (state : State σ) :
    State σ :=
  let state :=
    settled settings transport now (resumeDue transport now (sampleIfDue settings now state))
  settled settings transport now (reportIfDue settings now state)

def earliestTask (state : State σ) : Option Nat := (state.pool.tasks.map (·.2.due)).min?

def nextInstant (state : State σ) : Nat :=
  let others := (earliestTask state).toList
    ++ if state.waiting.isEmpty then state.nextReport.toList else []
  others.foldl min state.nextSample

/-- Runs up to the cancellation; every instant is at least a millisecond after the one before. -/
def running (settings : Settings) (transport : Transport σ) (cancel : Nat) :
    Nat → State σ → State σ
  | 0, state => state
  | bound + 1, state =>
    let now := nextInstant state
    if cancel ≤ now then state
    else running settings transport cancel bound (instant settings transport now state)

def cancelled (state : State σ) : State σ :=
  { state with waiting := [], nextReport := none, pool := state.pool.close }

/-- Delivers what is queued and under way, and tells when that is done. -/
def draining (settings : Settings) (transport : Transport σ) : Nat → Nat → State σ → Nat × State σ
  | 0, now, state => (now, state)
  | bound + 1, now, state =>
    let state := settled settings transport now (resumeDue transport now state)
    match earliestTask state with
    | some due => draining settings transport bound (max now due) state
    | none => (now, state)

structure Run (σ : Type) where
  ended : Nat
  final : State σ

def run (settings : Settings) (transport : Transport σ) (cancel : Nat) (collectors : List Collector)
    (world : σ) : Run σ :=
  let start : State σ := ⟨⟨collectors, 0, {}⟩, 0, some settings.report, [],
    .start settings.capacity settings.workers, world, []⟩
  let state := cancelled (running settings transport cancel (cancel + 1) start)
  let jobs := state.pool.queue.length + settings.workers
  let (ended, final) :=
    draining settings transport (jobs * (settings.schedule.length + 1) + 1) cancel state
  ⟨ended, final⟩

end Telemetry.Agent
