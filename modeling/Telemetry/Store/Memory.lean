import Telemetry.Store.Storage

/-!
The store in memory: a gauge keeps the last reading, a counter the exact sum of its deltas as long
as it fits in 64 bits. Gauges and counters are kept apart.
-/
namespace Telemetry

structure Memory where
  gauges : Table String Binary64 := .empty
  counters : Table String Int64 := .empty
  deriving Inhabited

namespace Memory

def size (memory : Memory) : Nat := memory.gauges.size + memory.counters.size

def sum? (total delta : Int64) : Option Int64 := Decimal.toInt64? (total.toInt + delta.toInt)

/-- Applies one metric. A counter has its entry, zero at first, before the sum is tried, so that a
refused delta leaves the entry behind. -/
def update (m : Metric) (memory : Memory) : Except StoreFault Unit × Memory :=
  match requireId m with
  | .error fault => (.error fault, memory)
  | .ok () =>
    match m.value with
    | .gauge reading => (.ok (), { memory with gauges := memory.gauges.put m.id reading })
    | .counter delta =>
      let total := (memory.counters.get? m.id).getD 0
      let opened := memory.counters.put m.id total
      match sum? total delta with
      | some sum => (.ok (), { memory with counters := opened.put m.id sum })
      | none => (.error (.overflow m.id), { memory with counters := opened })

def lookup (memory : Memory) (key : Key) : Option Value :=
  match key.kind with
  | .gauge => (memory.gauges.get? key.id).map .gauge
  | .counter => (memory.counters.get? key.id).map .counter

def get (key : Key) (memory : Memory) : Except StoreFault Metric :=
  match memory.lookup key with
  | some value => .ok ⟨key.id, value⟩
  | none => .error (.notFound key)

def contents (memory : Memory) : Contents :=
  let gauges := memory.gauges.entries.foldl
    (fun table (id, reading) => table.put ⟨id, .gauge⟩ (.gauge reading)) Table.empty
  memory.counters.entries.foldl
    (fun table (id, total) => table.put ⟨id, .counter⟩ (.counter total)) gauges

def storage : Storage Memory where
  backend := "memory"
  update := update
  updateBatch := updateEach update
  get := get
  all memory := .ok memory.contents
  ping _ := .ok ()

end Memory
end Telemetry
