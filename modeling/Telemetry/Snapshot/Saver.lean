import Telemetry.Snapshot.Basic

/-!
Savers: a store that saves itself after every successful write, and a task that saves a store at
every interval and once more when it is cancelled. A failed save is passed over, since the write it
follows has been done.
-/
namespace Telemetry.Snapshot

structure Saved (σ : Type) where
  state : σ
  files : Files

def Saved.save {σ : Type} (storage : Storage σ) (path : String) (saved : Saved σ) : Saved σ :=
  { saved with files := (Snapshot.save path (storage.all saved.state) saved.files).2 }

def Saved.run {σ α : Type} (operation : σ → α × σ) (saved : Saved σ) : α × Saved σ :=
  let (value, state) := operation saved.state
  (value, { saved with state })

def Saved.afterWrite {σ : Type} (storage : Storage σ) (path : String)
    (write : σ → Except StoreFault Unit × σ) (saved : Saved σ) : Except StoreFault Unit × Saved σ :=
  match saved.run write with
  | (.ok (), saved) => (.ok (), saved.save storage path)
  | (.error fault, saved) => (.error fault, saved)

def beside {σ : Type} (storage : Storage σ) : Storage (Saved σ) where
  backend := storage.backend
  update m := Saved.run (storage.update m)
  updateBatch ms := Saved.run (storage.updateBatch ms)
  get key saved := storage.get key saved.state
  all saved := storage.all saved.state
  ping saved := storage.ping saved.state

def writeThrough {σ : Type} (storage : Storage σ) (path : String) : Storage (Saved σ) :=
  { beside storage with
    update := fun m => Saved.afterWrite storage path (storage.update m)
    updateBatch := fun ms => Saved.afterWrite storage path (storage.updateBatch ms) }

/-- A task that saves at every multiple of its interval; a zero interval has none. -/
structure Task where
  path : String
  interval : Nat
  elapsed : Nat := 0
  cancelled : Bool := false
  deriving Repr

namespace Task

/-- How many instants to save at come before the end of the next milliseconds. One that falls on the
end is left to what follows. -/
def ticksWithin (task : Task) (span : Nat) : Nat :=
  if task.cancelled ∨ task.interval = 0 then 0
  else (task.elapsed + span - 1) / task.interval - (task.elapsed - 1) / task.interval

def sleep {σ : Type} (storage : Storage σ) (task : Task) (span : Nat) (saved : Saved σ) :
    Task × Saved σ :=
  ({ task with elapsed := task.elapsed + span },
    (task.ticksWithin span).repeat (Saved.save storage task.path) saved)

def cancel {σ : Type} (storage : Storage σ) (task : Task) (saved : Saved σ) : Task × Saved σ :=
  if task.cancelled then (task, saved)
  else ({ task with cancelled := true }, saved.save storage task.path)

end Task
end Telemetry.Snapshot
