/-!
A bounded queue and the workers that share it. Jobs are put in at the end and taken from the front,
each by one worker; once the queue is closed and empty, workers leave. Every step is given on its
own, so that a run is any order in which steps are possible.
-/
namespace Telemetry

inductive Worker (τ : Type) where
  | idle
  | busy (task : τ)
  | gone
  deriving DecidableEq, Repr

structure Pool (ι τ : Type) where
  capacity : Nat
  queue : List ι
  closed : Bool
  workers : List (Worker τ)
  deriving Repr

namespace Pool

variable {ι τ : Type}

def start (capacity workers : Nat) : Pool ι τ := ⟨capacity, [], false, List.replicate workers .idle⟩

def put (pool : Pool ι τ) (job : ι) : Option (Pool ι τ) :=
  if pool.closed = false ∧ pool.queue.length < pool.capacity then
    some { pool with queue := pool.queue ++ [job] }
  else none

def close (pool : Pool ι τ) : Pool ι τ := { pool with closed := true }

def take (pool : Pool ι τ) (worker : Nat) (begin_ : ι → τ) : Option (Pool ι τ) :=
  match pool.workers[worker]?, pool.queue with
  | some .idle, job :: rest =>
    some { pool with queue := rest, workers := pool.workers.set worker (.busy (begin_ job)) }
  | _, _ => none

def resume (pool : Pool ι τ) (worker : Nat) (task : τ) : Option (Pool ι τ) :=
  match pool.workers[worker]? with
  | some (.busy _) => some { pool with workers := pool.workers.set worker (.busy task) }
  | _ => none

def finish (pool : Pool ι τ) (worker : Nat) : Option (Pool ι τ) :=
  match pool.workers[worker]? with
  | some (.busy _) => some { pool with workers := pool.workers.set worker .idle }
  | _ => none

def leave (pool : Pool ι τ) (worker : Nat) : Option (Pool ι τ) :=
  match pool.workers[worker]? with
  | some .idle =>
    if pool.closed && pool.queue.isEmpty then
      some { pool with workers := pool.workers.set worker .gone }
    else none
  | _ => none

def tasks (pool : Pool ι τ) : List (Nat × τ) :=
  pool.workers.zipIdx.filterMap fun
    | (.busy task, worker) => some (worker, task)
    | _ => none

def idle? (pool : Pool ι τ) : Option Nat :=
  pool.workers.findIdx? fun
    | .idle => true
    | _ => false

end Pool
end Telemetry
