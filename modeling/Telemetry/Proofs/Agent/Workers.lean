import Mathlib.Algebra.Order.BigOperators.Group.List
import Mathlib.Algebra.Ring.Nat
import Mathlib.Data.List.Perm.Basic
import Telemetry.Agent.Delivery
import Telemetry.Proofs.Agent.Pool
import Telemetry.Proofs.Retry

/-!
Workers that share a queue with a producer, who puts jobs on it and then closes it, in every order
of their steps. Main statement: no worker leaves before the queue is closed and empty; every order
comes to an end; in the end each job has been taken once, by one worker, in the order of the queue,
and its delivery has returned; and a worker that is alone delivers the jobs one after the other.
-/
namespace Telemetry.Agent

/-- A delivery under way: its job, the number of the next attempt, and what is left of the schedule.
-/
structure Errand where
  job : Job
  attempt : Nat
  delays : Retry.Schedule

/-- A producer and the workers of its queue. -/
structure Shift (σ : Type) where
  /-- The jobs that have yet to be put on the queue. -/
  ahead : List Job
  pool : Pool Job Errand
  /-- The worker that has the lock of the queue. -/
  lock : Option Nat := none
  world : σ
  /-- The jobs that were put on the queue. -/
  put : List Job := []
  /-- The deliveries that were begun, each with its worker. -/
  begun : List (Nat × Job) := []
  /-- The deliveries that have returned, each with its worker. -/
  ended : List (Nat × Job × Except SendFault Unit) := []

namespace Shift

variable {σ : Type}

def start (jobs : List Job) (capacity workers : Nat) (world : σ) : Shift σ :=
  { ahead := jobs, pool := .start capacity workers, world }

/-- What can happen next. A worker that has the lock waits until there is a job or the queue is
closed and empty, and then lets go of it; delays between attempts are no steps of their own. -/
inductive Step (transport : Transport σ) (schedule : Retry.Schedule) (now : Shift σ) :
    Shift σ → Prop
  | put {job : Job} {rest : List Job} {pool : Pool Job Errand} (next : now.ahead = job :: rest)
      (room : now.pool.put job = some pool) :
      Step transport schedule now { now with ahead := rest, pool, put := now.put ++ [job] }
  | close (done : now.ahead = []) (unclosed : now.pool.closed = false) :
      Step transport schedule now { now with pool := now.pool.close }
  | lock {worker : Nat} (idle : now.pool.workers[worker]? = some .idle) (free : now.lock = none) :
      Step transport schedule now { now with lock := some worker }
  | take {worker : Nat} {job : Job} {pool : Pool Job Errand} (held : now.lock = some worker)
      (first : now.pool.queue.head? = some job)
      (taken : now.pool.take worker (fun job => ⟨job, 1, schedule⟩) = some pool) :
      Step transport schedule now
        { now with pool, lock := none, begun := now.begun ++ [(worker, job)] }
  | leave {worker : Nat} {pool : Pool Job Errand} (held : now.lock = some worker)
      (left : now.pool.leave worker = some pool) :
      Step transport schedule now { now with pool, lock := none }
  | again {worker delay : Nat} {errand : Errand} {rest : Retry.Schedule} {pool : Pool Job Errand}
      (busy : now.pool.workers[worker]? = some (.busy errand))
      (decided : Retry.next SendFault.isTransient errand.attempt errand.delays
        (transport errand.job now.world).1 =
        .again delay rest)
      (resumed : now.pool.resume worker ⟨errand.job, errand.attempt + 1, rest⟩ = some pool) :
      Step transport schedule now { now with pool, world := (transport errand.job now.world).2 }
  | finish {worker : Nat} {errand : Errand} {result : Except (Retry.Failure SendFault) Unit}
      {pool : Pool Job Errand} (busy : now.pool.workers[worker]? = some (.busy errand))
      (decided : Retry.next SendFault.isTransient errand.attempt errand.delays
        (transport errand.job now.world).1 =
        .finished result)
      (finished : now.pool.finish worker = some pool) :
      Step transport schedule now
        { now with
          pool, world := (transport errand.job now.world).2
          ended := now.ended ++ [(worker, errand.job, result.mapError SendFault.ofFailure)] }

abbrev Steps (transport : Transport σ) (schedule : Retry.Schedule) : Shift σ → Shift σ → Prop :=
  Relation.ReflTransGen (Step transport schedule)

def Left (now : Shift σ) : Prop := ∀ worker ∈ now.pool.workers, worker = .gone

end Shift

def ofWorker {α : Type} (worker : Nat) (log : List (Nat × α)) : List α :=
  log.filterMap fun (own, entry) => if own = worker then some entry else none

def inHand : Option (Worker Errand) → List Job
  | some (.busy errand) => [errand.job]
  | _ => []

section
variable {α : Type} {worker other : Nat}

theorem ofWorker_self (log : List (Nat × α)) (worker : Nat) (entry : α) :
    ofWorker worker (log ++ [(worker, entry)]) = ofWorker worker log ++ [entry] := by
  simp [ofWorker]

theorem ofWorker_of_ne (differ : worker ≠ other) (log : List (Nat × α)) (entry : α) :
    ofWorker other (log ++ [(worker, entry)]) = ofWorker other log := by
  simp [ofWorker, differ]

end

namespace Shift

variable {σ : Type} {transport : Transport σ} {schedule : Retry.Schedule} {jobs : List Job}
  {capacity workers : Nat}
  {world : σ} {now next : Shift σ}

/-! ### Where the jobs are -/

structure Kept (jobs : List Job) (capacity workers : Nat) (now : Shift σ) : Prop where
  whole : now.put ++ now.ahead = jobs
  order : now.begun.map Prod.snd ++ now.pool.queue = now.put
  capacity : now.pool.capacity = capacity
  staff : now.pool.workers.length = workers
  closed : now.pool.closed = true → now.ahead = []
  left : .gone ∈ now.pool.workers → now.pool.closed = true ∧ now.pool.queue = []
  holder : ∀ worker, now.lock = some worker → now.pool.workers[worker]? = some .idle
  tally : ∀ worker, ofWorker worker now.begun =
    (ofWorker worker now.ended).map Prod.fst ++ inHand now.pool.workers[worker]?

theorem kept_start (jobs : List Job) (capacity workers : Nat) (world : σ) :
    Kept jobs capacity workers (start jobs capacity workers world) where
  whole := rfl
  order := rfl
  capacity := rfl
  staff := List.length_replicate
  closed := nofun
  left member := by cases (List.mem_replicate.1 member).2
  holder := nofun
  tally worker := by
    rw [start, Pool.start, List.getElem?_replicate]
    split <;> rfl

theorem Kept.tally_set (kept : Kept jobs capacity workers now) {worker : Nat}
    {old new : Worker Errand} {begun : List (Nat × Job)}
    {ended : List (Nat × Job × Except SendFault Unit)} (here : now.pool.workers[worker]? = some old)
    (own : ofWorker worker begun = (ofWorker worker ended).map Prod.fst ++ inHand (some new))
    (others : ∀ other, worker ≠ other →
      ofWorker other begun = ofWorker other now.begun ∧
      ofWorker other ended = ofWorker other now.ended) :
    ∀ other, ofWorker other begun =
      (ofWorker other ended).map Prod.fst ++ inHand (now.pool.workers.set worker new)[other]? := by
  intro other
  by_cases same : worker = other
  · subst same
    rw [List.getElem?_set_self (List.getElem?_eq_some_iff.1 here).1, own]
  · obtain ⟨begun, ended⟩ := others other same
    rw [List.getElem?_set_ne same, begun, ended, kept.tally other]

theorem Kept.holder_set (kept : Kept jobs capacity workers now) {worker : Nat} {errand : Errand}
    (new : Worker Errand) (busy : now.pool.workers[worker]? = some (.busy errand)) :
    ∀ other, now.lock = some other → (now.pool.workers.set worker new)[other]? = some .idle := by
  intro other held
  have idle := kept.holder other held
  have apart : worker ≠ other := by
    rintro rfl
    rw [busy] at idle
    cases idle
  rw [List.getElem?_set_ne apart, idle]

theorem gone_of_mem_set {workers : List (Worker Errand)} {worker : Nat} {new : Worker Errand}
    (member : .gone ∈ workers.set worker new) (stays : new ≠ .gone) : .gone ∈ workers :=
  (List.mem_or_eq_of_mem_set member).resolve_right stays.symm

theorem Kept.step (kept : Kept jobs capacity workers now)
    (step : Step transport schedule now next) :
    Kept jobs capacity workers next := by
  cases step with
  | put first room =>
    obtain ⟨⟨unclosed, -⟩, rfl⟩ := Pool.put_eq_some_iff.1 room
    refine ⟨?_, ?_, kept.capacity, kept.staff, ?_, ?_, kept.holder, kept.tally⟩
    · rw [← kept.whole, first, List.append_assoc]
      rfl
    · rw [← List.append_assoc, kept.order]
    · intro closed
      rw [unclosed] at closed
      cases closed
    · intro gone
      rw [(kept.left gone).1] at unclosed
      cases unclosed
  | close done unclosed =>
    refine ⟨kept.whole, kept.order, kept.capacity, kept.staff, fun _ => done, ?_, kept.holder,
      kept.tally⟩
    intro gone
    exact ⟨rfl, (kept.left gone).2⟩
  | lock idle free =>
    refine ⟨kept.whole, kept.order, kept.capacity, kept.staff, kept.closed, kept.left, ?_,
      kept.tally⟩
    rintro worker ⟨⟩
    exact idle
  | @take worker job pool held first taken =>
    obtain ⟨front, rest, idle, queued, rfl⟩ := Pool.take_eq_some_iff.1 taken
    rw [queued] at first
    cases first
    refine ⟨kept.whole, ?_, kept.capacity, List.length_set.trans kept.staff, kept.closed, ?_, nofun,
      ?_⟩
    · rw [← kept.order, queued, List.map_append, List.append_assoc]
      rfl
    · intro gone
      rw [(kept.left (gone_of_mem_set gone nofun)).2] at queued
      cases queued
    · refine kept.tally_set idle ?_ ?_
      · rw [ofWorker_self, kept.tally worker, idle]
        simp only [inHand, List.append_nil]
      · intro other apart
        exact ⟨ofWorker_of_ne apart _ _, rfl⟩
  | @leave worker pool held left =>
    obtain ⟨idle, last, rfl⟩ := Pool.leave_eq_some_iff.1 left
    refine ⟨kept.whole, kept.order, kept.capacity, List.length_set.trans kept.staff, kept.closed,
      fun _ => last, nofun, ?_⟩
    refine kept.tally_set idle ?_ fun _ _ => ⟨rfl, rfl⟩
    rw [kept.tally worker, idle]
    rfl
  | @again worker delay errand rest pool busy decided resumed =>
    obtain ⟨-, rfl⟩ := Pool.resume_eq_some_iff.1 resumed
    refine ⟨kept.whole, kept.order, kept.capacity, List.length_set.trans kept.staff, kept.closed,
      ?_, kept.holder_set _ busy, ?_⟩
    · exact fun gone => kept.left (gone_of_mem_set gone nofun)
    · refine kept.tally_set busy ?_ fun _ _ => ⟨rfl, rfl⟩
      rw [kept.tally worker, busy]
      rfl
  | @finish worker errand result pool busy decided finished =>
    obtain ⟨-, rfl⟩ := Pool.finish_eq_some_iff.1 finished
    refine ⟨kept.whole, kept.order, kept.capacity, List.length_set.trans kept.staff, kept.closed,
      ?_, kept.holder_set _ busy, ?_⟩
    · exact fun gone => kept.left (gone_of_mem_set gone nofun)
    · refine kept.tally_set busy ?_ ?_
      · rw [ofWorker_self, kept.tally worker, busy, List.map_append]
        exact (List.append_nil _).symm
      · intro other apart
        exact ⟨rfl, ofWorker_of_ne apart _ _⟩

theorem Kept.steps (kept : Kept jobs capacity workers now)
    (steps : Steps transport schedule now next) :
    Kept jobs capacity workers next := by
  induction steps with
  | refl => exact kept
  | tail _ step ih => exact ih.step step

/-! ### Every order comes to an end -/

def toGo : Worker Errand → Nat
  | .idle => 2
  | .busy errand => errand.delays.length + 3
  | .gone => 0

def remaining (schedule : Retry.Schedule) (now : Shift σ) : Nat :=
  -- A job weighs more ahead than in the queue, and more there than the errand that it becomes,
  -- whose worker gives the lock back as it takes the job.
  (schedule.length + 5) * now.ahead.length + (schedule.length + 4) * now.pool.queue.length +
    (now.pool.workers.map toGo).sum + (if now.pool.closed then 0 else 1) +
    if now.lock.isSome then 0 else 1

theorem sum_toGo_set {workers : List (Worker Errand)} {worker : Nat} {old : Worker Errand}
    (here : workers[worker]? = some old) (new : Worker Errand) :
    ((workers.set worker new).map toGo).sum + toGo old = (workers.map toGo).sum + toGo new := by
  obtain ⟨bound, rfl⟩ := List.getElem?_eq_some_iff.1 here
  have before := ((List.getElem_cons_eraseIdx_perm bound).map toGo).sum_eq
  have after := ((List.set_perm_cons_eraseIdx bound new).map toGo).sum_eq
  rw [List.map_cons, List.sum_cons] at before after
  omega

theorem Step.remaining_lt (step : Step transport schedule now next) :
    next.remaining schedule < now.remaining schedule := by
  unfold remaining
  cases step with
  | put first room =>
    obtain ⟨-, rfl⟩ := Pool.put_eq_some_iff.1 room
    simp only [first, List.length_cons, List.length_append, List.length_nil, Nat.mul_add]
    omega
  | close done unclosed =>
    simp only [Pool.close, unclosed, if_true, Bool.false_eq_true, if_false]
    omega
  | lock idle free =>
    simp only [free, Option.isSome_some, Option.isSome_none, if_true, Bool.false_eq_true, if_false]
    omega
  | take held first taken =>
    obtain ⟨job, rest, idle, queued, rfl⟩ := Pool.take_eq_some_iff.1 taken
    have moved := sum_toGo_set idle (.busy ⟨job, 1, schedule⟩)
    simp only [toGo] at moved
    simp only [held, queued, List.length_cons, Nat.mul_add, Option.isSome_some, Option.isSome_none,
      if_true, Bool.false_eq_true, if_false]
    omega
  | leave held left =>
    obtain ⟨idle, -, rfl⟩ := Pool.leave_eq_some_iff.1 left
    have moved := sum_toGo_set idle .gone
    simp only [toGo] at moved
    simp only [held, Option.isSome_some, Option.isSome_none, if_true, Bool.false_eq_true, if_false]
    omega
  | @again worker delay errand rest pool busy decided resumed =>
    obtain ⟨-, rfl⟩ := Pool.resume_eq_some_iff.1 resumed
    have moved := sum_toGo_set busy (.busy ⟨errand.job, errand.attempt + 1, rest⟩)
    simp only [toGo, Retry.delays_of_next_eq_again decided, List.length_cons] at moved
    simp only
    omega
  | finish busy decided finished =>
    obtain ⟨-, rfl⟩ := Pool.finish_eq_some_iff.1 finished
    have moved := sum_toGo_set busy .idle
    simp only [toGo] at moved
    simp only
    omega

/-- However the producer and the workers take their turns, they cannot go on for ever. -/
theorem wellFounded_step (transport : Transport σ) (schedule : Retry.Schedule) :
    WellFounded fun next now : Shift σ => Step transport schedule now next :=
  Subrelation.wf Step.remaining_lt (measure (remaining schedule)).wf

theorem step_of_busy {worker : Nat} {errand : Errand}
    (busy : now.pool.workers[worker]? = some (.busy errand)) :
    ∃ next, Step transport schedule now next := by
  cases decided : Retry.next SendFault.isTransient errand.attempt errand.delays
    (transport errand.job now.world).1 with
  | finished result =>
    exact ⟨_, .finish busy decided (Pool.finish_eq_some_iff.2 ⟨⟨errand, busy⟩, rfl⟩)⟩
  | again delay rest =>
    exact ⟨_, .again busy decided (Pool.resume_eq_some_iff.2 ⟨⟨errand, busy⟩, rfl⟩)⟩

theorem step_of_locked (kept : Kept jobs capacity workers now) (room : 0 < capacity) {worker : Nat}
    (held : now.lock = some worker) : ∃ next, Step transport schedule now next := by
  have idle := kept.holder worker held
  cases queued : now.pool.queue with
  | cons job rest =>
    have first : now.pool.queue.head? = some job := by rw [queued, List.head?_cons]
    exact ⟨_, .take held first (Pool.take_eq_some_iff.2 ⟨job, rest, idle, queued, rfl⟩)⟩
  | nil =>
    cases closed : now.pool.closed with
    | true => exact ⟨_, .leave held (Pool.leave_eq_some_iff.2 ⟨idle, ⟨closed, queued⟩, rfl⟩)⟩
    | false =>
      cases first : now.ahead with
      | nil => exact ⟨_, .close first closed⟩
      | cons job rest =>
        have free : now.pool.queue.length < now.pool.capacity := by
          rw [queued, kept.capacity]
          exact room
        exact ⟨_, .put first (Pool.put_eq_some_iff.2 ⟨⟨closed, free⟩, rfl⟩)⟩

/-- Nobody waits for ever: there is a next step for as long as a worker is there. -/
theorem Kept.step_or_left (kept : Kept jobs capacity workers now) (room : 0 < capacity) :
    (∃ next, Step transport schedule now next) ∨ now.Left := by
  refine or_iff_not_imp_right.2 ?_
  intro stays
  simp only [Left, not_forall] at stays
  obtain ⟨worker, member, stays⟩ := stays
  obtain ⟨index, here⟩ := List.mem_iff_getElem?.1 member
  cases worker with
  | busy errand => exact step_of_busy here
  | gone => exact absurd rfl stays
  | idle =>
    cases lock : now.lock with
    | none => exact ⟨_, .lock here lock⟩
    | some holder => exact step_of_locked kept room lock

/-! ### One worker alone -/

def answers (transport : Transport σ) (schedule : Retry.Schedule) (jobs : List Job) (world : σ) :
    List (Job × Except SendFault Unit) × σ :=
  let (deliveries, world) := transport.deliverAll schedule jobs world
  (jobs.zip (deliveries.map (·.result)), world)

theorem answers_cons (job : Job) (jobs : List Job) (world : σ) :
    answers transport schedule (job :: jobs) world =
      let delivery := transport.deliver schedule job world
      let later := answers transport schedule jobs delivery.state
      ((job, delivery.result) :: later.1, later.2) := rfl

/-- What a worker that is alone has yet to answer, and the world after that. -/
def coming (transport : Transport σ) (schedule : Retry.Schedule) (now : Shift σ) :
    List (Job × Except SendFault Unit) × σ :=
  let jobs := now.pool.queue ++ now.ahead
  match now.pool.workers with
  | [.busy errand] =>
    let outcome := Retry.runFrom SendFault.isTransient (fun _ => transport errand.job)
      errand.attempt errand.delays
      now.world
    let later := answers transport schedule jobs outcome.state
    ((errand.job, outcome.result.mapError SendFault.ofFailure) :: later.1, later.2)
  | _ => answers transport schedule jobs now.world

/-- What has been answered and what is coming are what there is to answer. -/
def Foretold (transport : Transport σ) (schedule : Retry.Schedule) (jobs : List Job) (world : σ)
    (now : Shift σ) :
    Prop :=
  (now.ended.map Prod.snd ++ (now.coming transport schedule).1, (now.coming transport schedule).2) =
    answers transport schedule jobs world

theorem alone_of_getElem? {staff : List (Worker Errand)} {worker : Nat} {state : Worker Errand}
    (alone : staff.length = 1) (here : staff[worker]? = some state) :
    worker = 0 ∧ staff = [state] := by
  obtain ⟨only, rfl⟩ := List.length_eq_one_iff.1 alone
  cases worker with
  | zero =>
    cases here
    exact ⟨rfl, rfl⟩
  | succ => cases here

theorem Foretold.step (foretold : Foretold transport schedule jobs world now)
    (kept : Kept jobs capacity 1 now) (step : Step transport schedule now next) :
    Foretold transport schedule jobs world next := by
  rw [Foretold, ← foretold]
  -- The only worker has nothing in hand when it takes a job, so a job never overtakes another.
  cases step with
  | put first room =>
    obtain ⟨-, rfl⟩ := Pool.put_eq_some_iff.1 room
    simp only [coming, first, List.append_assoc, List.singleton_append]
  | close done unclosed => rfl
  | lock idle free => rfl
  | take held first taken =>
    obtain ⟨job, rest, idle, queued, rfl⟩ := Pool.take_eq_some_iff.1 taken
    obtain ⟨rfl, alone⟩ := alone_of_getElem? kept.staff idle
    simp only [coming, alone, queued, List.set_cons_zero, List.cons_append, answers_cons]
    rfl
  | leave held left =>
    obtain ⟨idle, -, rfl⟩ := Pool.leave_eq_some_iff.1 left
    obtain ⟨rfl, alone⟩ := alone_of_getElem? kept.staff idle
    simp only [coming, alone, List.set_cons_zero]
  | @again _ _ errand _ _ busy decided resumed =>
    obtain ⟨-, rfl⟩ := Pool.resume_eq_some_iff.1 resumed
    obtain ⟨rfl, alone⟩ := alone_of_getElem? kept.staff busy
    simp only [coming, alone, List.set_cons_zero]
    rw [Retry.runFrom_eq_next _ _ errand.attempt errand.delays, decided]
  | @finish _ errand _ _ busy decided finished =>
    obtain ⟨-, rfl⟩ := Pool.finish_eq_some_iff.1 finished
    obtain ⟨rfl, alone⟩ := alone_of_getElem? kept.staff busy
    simp only [coming, alone, List.set_cons_zero, List.map_append, List.append_assoc]
    rw [Retry.runFrom_eq_next _ _ errand.attempt errand.delays, decided]
    rfl

theorem Foretold.steps (steps : Steps transport schedule (start jobs capacity 1 world) now) :
    Foretold transport schedule jobs world now := by
  induction steps with
  | refl => rfl
  | tail earlier step ih => exact ih.step ((kept_start jobs capacity 1 world).steps earlier) step

/-! ### What becomes of the jobs -/

structure Orderly (jobs : List Job) (now : Shift σ) : Prop where
  /-- Jobs go on the queue in their order, and the first that are there have been taken in that
  order. -/
  put : now.put <+: jobs
  taken : now.begun.map Prod.snd ++ now.pool.queue = now.put
  /-- A worker has a job of its own in hand until its delivery returns, and nothing else to answer
  for. -/
  answered : ∀ worker, (ofWorker worker now.ended).map Prod.fst <+: ofWorker worker now.begun
  /-- Nobody has left too early. -/
  left : .gone ∈ now.pool.workers → now.pool.closed = true ∧ now.ahead = [] ∧ now.pool.queue = []

structure Delivered (jobs : List Job) (last : Shift σ) : Prop where
  put : last.put = jobs
  queue : last.pool.queue = []
  /-- Every delivery was begun, in the order of the jobs, by one worker. -/
  begun : last.begun.map Prod.snd = jobs
  /-- A worker got an answer for each job that it took. -/
  ended : ∀ worker, (ofWorker worker last.ended).map Prod.fst = ofWorker worker last.begun

theorem Kept.orderly (kept : Kept jobs capacity workers now) : Orderly jobs now where
  put := ⟨now.ahead, kept.whole⟩
  taken := kept.order
  answered worker := ⟨_, (kept.tally worker).symm⟩
  left gone :=
    have last := kept.left gone
    ⟨last.1, kept.closed last.1, last.2⟩

theorem Kept.delivered (kept : Kept jobs capacity workers now) (staffed : 0 < workers)
    (left : now.Left) :
    Delivered jobs now := by
  have gone : .gone ∈ now.pool.workers := by
    obtain ⟨worker, member⟩ := List.exists_mem_of_length_pos (kept.staff ▸ staffed)
    exact left worker member ▸ member
  obtain ⟨-, ahead, queue⟩ := kept.orderly.left gone
  have whole := kept.whole
  have order := kept.order
  rw [ahead, List.append_nil] at whole
  rw [queue, List.append_nil] at order
  refine ⟨whole, queue, order.trans whole, ?_⟩
  intro worker
  have empty : inHand now.pool.workers[worker]? = [] := by
    cases here : now.pool.workers[worker]? with
    | none => rfl
    | some state =>
      rw [left state (List.mem_of_getElem? here)]
      rfl
  rw [kept.tally worker, empty, List.append_nil]

theorem Foretold.whole (foretold : Foretold transport schedule jobs world now)
    (kept : Kept jobs capacity 1 now) (left : now.Left) : (now.ended.map Prod.snd, now.world) =
      answers transport schedule jobs world := by
  obtain ⟨worker, alone⟩ := List.length_eq_one_iff.1 kept.staff
  have gone : .gone ∈ now.pool.workers := by
    have member : worker ∈ now.pool.workers := by rw [alone, List.mem_singleton]
    exact left worker member ▸ member
  obtain ⟨-, ahead, queue⟩ := kept.orderly.left gone
  have nothing : now.coming transport schedule = ([], now.world) := by
    rw [alone, List.mem_singleton] at gone
    simp only [coming, alone, ← gone, queue, ahead, List.append_nil]
    rfl
  rw [← foretold, nothing, List.append_nil]

/-- Any number of workers, a queue of any capacity, and every order of their steps. -/
theorem jobs_delivered_once (transport : Transport σ) (schedule : Retry.Schedule) (jobs : List Job)
    (world : σ) {capacity workers : Nat} (room : 0 < capacity) (staffed : 0 < workers) :
    WellFounded (fun next now : Shift σ => Step transport schedule now next) ∧
    (∀ now, Steps transport schedule (start jobs capacity workers world) now →
      Orderly jobs now ∧ ((∃ next, Step transport schedule now next) ∨ now.Left)) ∧
    ∀ last, Steps transport schedule (start jobs capacity workers world) last → last.Left →
      Delivered jobs last ∧
      (workers = 1 →
        (last.ended.map Prod.snd, last.world) = answers transport schedule jobs world) := by
  have kept : ∀ {now}, Steps transport schedule (start jobs capacity workers world) now →
      Kept jobs capacity workers now :=
        fun steps => (kept_start jobs capacity workers world).steps steps
  refine ⟨wellFounded_step transport schedule, ?_, ?_⟩
  · intro now steps
    exact ⟨(kept steps).orderly, (kept steps).step_or_left room⟩
  · intro last steps left
    refine ⟨(kept steps).delivered staffed left, ?_⟩
    rintro rfl
    exact (Foretold.steps steps).whole (kept steps) left

def losesFirst : Transport (List Job) := fun job sent =>
  (if sent.isEmpty then .error .timeout else .ok (), sent ++ [job])

def polled : Job := .single ⟨"PollCount", .counter 1⟩

def read : Job := .batch [⟨"Alloc", .gauge .zero⟩]

/-- A worker that waits for its second attempt while another one delivers the next job. -/
theorem jobs_delivered_once_by_two :
    0 < 1 ∧ 0 < 2 ∧ ∃ last, Steps losesFirst [1000] (start [polled, read] 1 2 []) last ∧ last.Left ∧
      Delivered [polled, read] last ∧ last.begun = [(0, polled), (1, read)] ∧
      last.ended = [(1, read, .ok ()), (0, polled, .ok ())] ∧
      last.world = [polled, read, polled] := by
  have begin_ : Steps losesFirst [1000] (start [polled, read] 1 2 []) _ := .refl
  have first :=
    ((begin_.tail (.put rfl rfl)).tail (@Step.lock _ _ _ _ 0 rfl rfl)).tail (.take rfl rfl rfl)
  have second :=
    ((first.tail (.put rfl rfl)).tail (@Step.lock _ _ _ _ 1 rfl rfl)).tail (.take rfl rfl rfl)
  have lost := second.tail (@Step.again _ _ _ _ 0 _ _ _ _ rfl rfl rfl)
  have sent := (lost.tail (@Step.finish _ _ _ _ 1 _ _ _ rfl rfl rfl)).tail
    (@Step.finish _ _ _ _ 0 _ _ _ rfl rfl rfl)
  have closed := sent.tail (.close rfl rfl)
  have left := (closed.tail (@Step.lock _ _ _ _ 1 rfl rfl)).tail (.leave rfl rfl)
  have last := (left.tail (@Step.lock _ _ _ _ 0 rfl rfl)).tail (.leave rfl rfl)
  have gone : ∀ worker ∈ [.gone, .gone], worker = (.gone : Worker Errand) := by simp
  have delivered :=
    (jobs_delivered_once losesFirst [1000] [polled, read] [] (by decide) (by decide)).2.2 _ last
      gone
  exact ⟨by decide, by decide, _, last, gone, delivered.1, rfl, rfl, rfl⟩

end Shift
end Telemetry.Agent
