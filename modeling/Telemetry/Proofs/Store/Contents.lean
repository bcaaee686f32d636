import Telemetry.Proofs.Store.Run
import Telemetry.Proofs.Table
import Telemetry.Store.Memory

namespace Telemetry

namespace Contents

def total (contents : Contents) (id : String) : Int64 :=
  match contents.get? ⟨id, .counter⟩ with
  | some (.counter total) => total
  | _ => 0

/-- Enters one metric: a gauge takes the reading and a counter the sum of its total and the delta.
-/
def update (m : Metric) (contents : Contents) : Except StoreFault Unit × Contents :=
  match requireId m with
  | .error fault => (.error fault, contents)
  | .ok () =>
    match m.value with
    | .gauge reading => (.ok (), contents.put m.key (.gauge reading))
    | .counter delta =>
      match Memory.sum? (contents.total m.id) delta with
      | some sum => (.ok (), contents.put m.key (.counter sum))
      | none => (.error (.overflow m.id), contents)

end Contents

theorem requireId_ok {m : Metric} (named : m.id ≠ "") : requireId m = .ok () := if_neg named

theorem requireId_error {m : Metric} (unnamed : m.id = "") :
    requireId m = .error (.invalid .emptyId) :=
  if_pos unnamed

namespace Contents

theorem update_gauge {id : String} (named : id ≠ "") (reading : Binary64) (contents : Contents) :
    update ⟨id, .gauge reading⟩ contents =
      (.ok (), contents.put ⟨id, .gauge⟩ (.gauge reading)) := by
  simp only [update, @requireId_ok ⟨id, .gauge reading⟩ named]
  rfl

theorem update_counter {id : String} (named : id ≠ "") (delta : Int64) (contents : Contents) :
    update ⟨id, .counter delta⟩ contents =
      match Memory.sum? (contents.total id) delta with
      | some sum => (.ok (), contents.put ⟨id, .counter⟩ (.counter sum))
      | none => (.error (.overflow id), contents) := by
  simp only [update, @requireId_ok ⟨id, .counter delta⟩ named]
  rfl

theorem named_of_update {m : Metric} {contents next : Contents}
    (taken : update m contents = (.ok (), next)) : m.id ≠ "" := by
  intro unnamed
  simp only [update, requireId_error unnamed] at taken
  cases taken

theorem get?_update_self {m : Metric} {contents next : Contents}
    (taken : update m contents = (.ok (), next)) : ∃ value, next.get? m.key = some value := by
  have named := named_of_update taken
  obtain ⟨id, value⟩ := m
  cases value with
  | gauge reading =>
    rw [update_gauge named] at taken
    obtain rfl := congrArg Prod.snd taken
    exact ⟨_, (Table.get?_put ..).trans (if_pos rfl)⟩
  | counter delta =>
    rw [update_counter named] at taken
    cases sum : Memory.sum? (contents.total id) delta with
    | none =>
      rw [sum] at taken
      cases taken
    | some total =>
      rw [sum] at taken
      obtain rfl := congrArg Prod.snd taken
      exact ⟨_, (Table.get?_put ..).trans (if_pos rfl)⟩

end Contents

namespace Memory

theorem sum?_zero (delta : Int64) : sum? 0 delta = some delta := by
  rw [sum?, Decimal.toInt64?_eq_some]
  simp

/-- The entry that a refused delta leaves behind was there before: zero and a delta always fit. -/
theorem put_total_of_overflow {counters : Table String Int64} {id : String} {delta : Int64}
    (overflow : sum? ((counters.get? id).getD 0) delta = none) :
    counters.put id ((counters.get? id).getD 0) = counters := by
  cases there : counters.get? id with
  | none =>
    rw [there, Option.getD_none, sum?_zero] at overflow
    cases overflow
  | some total => exact Table.put_of_get? there

theorem update_of_unnamed {m : Metric} (unnamed : m.id = "") (memory : Memory) :
    update m memory = (.error (.invalid .emptyId), memory) := by
  simp only [update, requireId_error unnamed]

theorem update_gauge {m : Metric} (named : m.id ≠ "") {reading : Binary64}
    (value : m.value = .gauge reading) (memory : Memory) :
    update m memory = (.ok (), { memory with gauges := memory.gauges.put m.id reading }) := by
  simp only [update, requireId_ok named, value]

theorem update_counter {m : Metric} (named : m.id ≠ "") {delta : Int64}
    (value : m.value = .counter delta) (memory : Memory) :
    update m memory =
      match sum? ((memory.counters.get? m.id).getD 0) delta with
      | some sum => (.ok (), { memory with counters := memory.counters.put m.id sum })
      | none => (.error (.overflow m.id), memory) := by
  simp only [update, requireId_ok named, value]
  cases sum : sum? ((memory.counters.get? m.id).getD 0) delta with
  | none => simp only [put_total_of_overflow sum]
  | some sum => simp only [Table.put_put]

/-- A refused metric changes nothing, not even creating its series. -/
theorem snd_update_of_error {m : Metric} {memory : Memory} {fault : StoreFault}
    (refused : (update m memory).1 = .error fault) : (update m memory).2 = memory := by
  by_cases unnamed : m.id = ""
  · rw [update_of_unnamed unnamed]
  cases value : m.value with
  | gauge reading =>
    rw [update_gauge unnamed value] at refused
    cases refused
  | counter delta =>
    rw [update_counter unnamed value] at refused ⊢
    split at refused
    · cases refused
    · rfl

theorem gaugeKey_injective (a b : String) (same : (⟨a, .gauge⟩ : Key) = ⟨b, .gauge⟩) : a = b :=
  congrArg Key.id same

theorem counterKey_injective (a b : String) (same : (⟨a, .counter⟩ : Key) = ⟨b, .counter⟩) :
    a = b :=
  congrArg Key.id same

theorem contents_eq_enterAll (memory : Memory) :
    memory.contents =
      Table.enterAll (fun id => ⟨id, .counter⟩) .counter memory.counters.entries
        (Table.enterAll (fun id => ⟨id, .gauge⟩) .gauge memory.gauges.entries Table.empty) := rfl

@[simp] theorem get?_contents (memory : Memory) (key : Key) :
    memory.contents.get? key = memory.lookup key := by
  obtain ⟨id, kind⟩ := key
  rw [contents_eq_enterAll]
  cases kind with
  | gauge =>
    rw [Table.get?_enterAll_of_ne (by simp),
      Table.get?_enterAll gaugeKey_injective memory.gauges.sorted, Table.get?_empty, Option.or_none]
    rfl
  | counter =>
    rw [Table.get?_enterAll counterKey_injective memory.counters.sorted,
      Table.get?_enterAll_of_ne (by simp), Table.get?_empty, Option.or_none]
    rfl

theorem kind_of_lookup {memory : Memory} {key : Key} {value : Value}
    (there : memory.lookup key = some value) :
    value.kind = key.kind := by
  obtain ⟨id, kind⟩ := key
  cases kind with
  | gauge =>
    obtain ⟨reading, -, rfl⟩ := Option.map_eq_some_iff.1 there
    rfl
  | counter =>
    obtain ⟨total, -, rfl⟩ := Option.map_eq_some_iff.1 there
    rfl

theorem mem_contents_iff {memory : Memory} {key : Key} {value : Value} :
    (key, value) ∈ memory.contents.entries ↔ memory.lookup key = some value := by
  rw [Table.mem_entries_iff, get?_contents]

theorem mem_metrics_iff {memory : Memory} {m : Metric} :
    m ∈ memory.contents.metrics ↔ memory.lookup m.key = some m.value := by
  rw [Contents.metrics, List.mem_map]
  constructor
  · rintro ⟨⟨key, value⟩, listed, rfl⟩
    have there := mem_contents_iff.1 listed
    have same : Metric.key ⟨key.id, value⟩ = key := congrArg (Key.mk key.id) (kind_of_lookup there)
    rwa [same]
  · intro there
    exact ⟨(m.key, m.value), mem_contents_iff.2 there, rfl⟩

theorem size_contents (memory : Memory) : memory.contents.size = memory.size := by
  rw [contents_eq_enterAll, Table.size_enterAll counterKey_injective memory.counters.sorted,
    Table.size_enterAll gaugeKey_injective memory.gauges.sorted]
  · simp [size, Table.size, Table.empty]
  · intro id; rfl
  · intro id
    rw [Table.get?_enterAll_of_ne (by simp), Table.get?_empty]

theorem total_contents (memory : Memory) (id : String) :
    memory.contents.total id = (memory.counters.get? id).getD 0 := by
  rw [Contents.total, get?_contents]
  cases there : memory.counters.get? id <;> simp [lookup, there]

theorem lookup_put_gauge (memory : Memory) (id : String) (reading : Binary64) (key : Key) :
    lookup { memory with gauges := memory.gauges.put id reading } key =
      if key = ⟨id, .gauge⟩ then some (.gauge reading) else memory.lookup key := by
  obtain ⟨other, kind⟩ := key
  cases kind with
  | gauge => by_cases same : other = id <;> simp [lookup, Table.get?_put, same]
  | counter => simp [lookup]

theorem lookup_put_counter (memory : Memory) (id : String) (total : Int64) (key : Key) :
    lookup { memory with counters := memory.counters.put id total } key =
      if key = ⟨id, .counter⟩ then some (.counter total) else memory.lookup key := by
  obtain ⟨other, kind⟩ := key
  cases kind with
  | gauge => simp [lookup]
  | counter => by_cases same : other = id <;> simp [lookup, Table.get?_put, same]

theorem get_eq_ok_iff {memory : Memory} {key : Key} {m : Metric} :
    get key memory = .ok m ↔ ∃ value, memory.lookup key = some value ∧ m = ⟨key.id, value⟩ := by
  unfold get
  cases memory.lookup key <;> simp [eq_comm]

theorem get_eq_notFound_iff {memory : Memory} {key : Key} :
    get key memory = .error (.notFound key) ↔ memory.lookup key = none := by
  unfold get
  cases memory.lookup key <;> simp

theorem lookup_update_of_ne {m : Metric} {key : Key} (other : key ≠ m.key) (memory : Memory) :
    (update m memory).2.lookup key = memory.lookup key := by
  by_cases unnamed : m.id = ""
  · rw [update_of_unnamed unnamed]
  obtain ⟨id, value⟩ := m
  cases value with
  | gauge reading =>
    rw [update_gauge unnamed rfl, lookup_put_gauge]
    exact if_neg other
  | counter delta =>
    rw [update_counter unnamed rfl]
    cases sum? ((memory.counters.get? id).getD 0) delta with
    | none => rfl
    | some sum => exact (lookup_put_counter memory id sum key).trans (if_neg other)

theorem get_update_of_ne {m : Metric} {key : Key} (other : key ≠ m.key) (memory : Memory) :
    get key (update m memory).2 = get key memory := by
  unfold get
  rw [lookup_update_of_ne other]

theorem stopsAt_iff {ms : List Metric} {memory after : Memory} {fault : StoreFault} :
    StopsAt update ms memory fault after ↔ ∃ front m rest, ms = front ++ m :: rest ∧
      updateEach update front memory = (.ok (), after) ∧
      update m after = (.error fault, after) := by
  constructor
  · rintro ⟨front, m, rest, middle, split, applied, stopped⟩
    have unchanged := snd_update_of_error (congrArg Prod.fst stopped)
    rw [stopped] at unchanged
    cases unchanged
    exact ⟨front, m, rest, split, applied, stopped⟩
  · rintro ⟨front, m, rest, split, applied, stopped⟩
    exact ⟨front, m, rest, after, split, applied, stopped⟩

theorem update_contents (m : Metric) (memory : Memory) :
    Contents.update m memory.contents = ((update m memory).1, (update m memory).2.contents) := by
  by_cases unnamed : m.id = ""
  · simp only [Contents.update, requireId_error unnamed, update_of_unnamed unnamed]
  obtain ⟨id, value⟩ := m
  cases value with
  | gauge reading =>
    have same : memory.contents.put ⟨id, .gauge⟩ (.gauge reading) =
        Memory.contents { memory with gauges := memory.gauges.put id reading } := by
      apply Table.ext_get?
      intro key
      rw [Table.get?_put, get?_contents, get?_contents, lookup_put_gauge]
    rw [update_gauge unnamed rfl, Contents.update_gauge unnamed, same]
  | counter delta =>
    rw [update_counter unnamed rfl, Contents.update_counter unnamed, total_contents]
    cases sum? ((memory.counters.get? id).getD 0) delta with
    | none => rfl
    | some sum =>
      have same : memory.contents.put ⟨id, .counter⟩ (.counter sum) =
          Memory.contents { memory with counters := memory.counters.put id sum } := by
        apply Table.ext_get?
        intro key
        rw [Table.get?_put, get?_contents, get?_contents, lookup_put_counter]
      simp only [same]

theorem storage_write (write : Write) (memory : Memory) :
    storage.write write memory = updateEach update write.metrics memory := by
  cases write with
  | update m => exact (@updateEach_singleton _ update m memory).symm
  | batch ms => rfl

theorem updateEach_contents (ms : List Metric) (memory : Memory) :
    updateEach Contents.update ms memory.contents =
      ((updateEach update ms memory).1, (updateEach update ms memory).2.contents) := by
  have step : ∀ m ∈ ms, ∀ contents memory, contents = Memory.contents memory →
      (Contents.update m contents).1 = (update m memory).1 ∧
        (Contents.update m contents).2 = (update m memory).2.contents := by
    rintro m _ _ memory rfl
    rw [update_contents]
    exact ⟨rfl, rfl⟩
  have alike := updateEach_related step (rfl : memory.contents = memory.contents)
  exact Prod.ext alike.1 alike.2

end Memory
end Telemetry
