import Mathlib.Logic.Relation
import Telemetry.Agent.Pool

namespace Telemetry.Pool

variable {ι τ : Type} {pool next : Pool ι τ} {worker : Nat}

theorem put_eq_some_iff {job : ι} :
    pool.put job = some next ↔
      (pool.closed = false ∧ pool.queue.length < pool.capacity) ∧
        { pool with queue := pool.queue ++ [job] } = next := by
  unfold put
  exact Option.ite_none_right_eq_some.trans (and_congr_right' Option.some_inj)

theorem take_eq_some_iff {begin_ : ι → τ} :
    pool.take worker begin_ = some next ↔
      ∃ job rest, pool.workers[worker]? = some .idle ∧ pool.queue = job :: rest ∧
        { pool with queue := rest, workers := pool.workers.set worker (.busy (begin_ job)) } =
          next := by
  unfold take
  constructor
  · intro taken
    split at taken
    case h_1 job rest idle queued => exact ⟨job, rest, idle, queued, Option.some.inj taken⟩
    case h_2 => cases taken
  · rintro ⟨job, rest, idle, queued, rfl⟩
    rw [idle, queued]

theorem resume_eq_some_iff {task : τ} :
    pool.resume worker task = some next ↔
      (∃ old, pool.workers[worker]? = some (.busy old)) ∧
        { pool with workers := pool.workers.set worker (.busy task) } = next := by
  unfold resume
  constructor
  · intro resumed
    split at resumed
    case h_1 old busy => exact ⟨⟨old, busy⟩, Option.some.inj resumed⟩
    case h_2 => cases resumed
  · rintro ⟨⟨old, busy⟩, rfl⟩
    rw [busy]

theorem finish_eq_some_iff :
    pool.finish worker = some next ↔
      (∃ task, pool.workers[worker]? = some (.busy task)) ∧
        { pool with workers := pool.workers.set worker .idle } = next := by
  unfold finish
  constructor
  · intro finished
    split at finished
    case h_1 task busy => exact ⟨⟨task, busy⟩, Option.some.inj finished⟩
    case h_2 => cases finished
  · rintro ⟨⟨task, busy⟩, rfl⟩
    rw [busy]

theorem leave_eq_some_iff :
    pool.leave worker = some next ↔
      pool.workers[worker]? = some .idle ∧ (pool.closed = true ∧ pool.queue = []) ∧
        { pool with workers := pool.workers.set worker .gone } = next := by
  unfold leave
  constructor
  · intro left
    split at left
    case h_1 idle =>
      obtain ⟨last, same⟩ := Option.ite_none_right_eq_some.1 left
      rw [Bool.and_eq_true, List.isEmpty_iff] at last
      exact ⟨idle, last, Option.some.inj same⟩
    case h_2 => cases left
  · rintro ⟨idle, ⟨closed, empty⟩, rfl⟩
    rw [idle, closed, empty]
    rfl

inductive Works (pool : Pool ι τ) : Pool ι τ → Prop
  | take {worker : Nat} {begin_ : ι → τ} {next : Pool ι τ}
      (taken : pool.take worker begin_ = some next) :
      Works pool next
  | resume {worker : Nat} {task : τ} {next : Pool ι τ}
      (resumed : pool.resume worker task = some next) :
      Works pool next
  | finish {worker : Nat} {next : Pool ι τ} (finished : pool.finish worker = some next) :
      Works pool next
  | leave {worker : Nat} {next : Pool ι τ} (left : pool.leave worker = some next) : Works pool next

theorem Works.length_workers (works : Works pool next) :
    next.workers.length = pool.workers.length := by
  cases works with
  | take taken =>
    obtain ⟨job, rest, -, -, rfl⟩ := take_eq_some_iff.1 taken
    exact List.length_set
  | resume resumed =>
    obtain ⟨-, rfl⟩ := resume_eq_some_iff.1 resumed
    exact List.length_set
  | finish finished =>
    obtain ⟨-, rfl⟩ := finish_eq_some_iff.1 finished
    exact List.length_set
  | leave left =>
    obtain ⟨-, -, rfl⟩ := leave_eq_some_iff.1 left
    exact List.length_set

theorem length_workers (works : Relation.ReflTransGen Works pool next) :
    next.workers.length = pool.workers.length := by
  induction works with
  | refl => rfl
  | tail _ step ih => exact step.length_workers.trans ih

theorem mem_workers_of_mem_tasks {task : τ} (member : (worker, task) ∈ pool.tasks) :
    .busy task ∈ pool.workers := by
  obtain ⟨⟨held, index⟩, inside, same⟩ := List.mem_filterMap.1 member
  cases held with
  | busy =>
    cases same
    exact List.fst_mem_of_mem_zipIdx inside
  | idle => cases same
  | gone => cases same

end Telemetry.Pool
