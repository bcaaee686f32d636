import Mathlib.Algebra.Ring.Int.Defs
import Telemetry.Proofs.Store.Contents

/-!
The store in memory against the history of the metrics that it has taken. A history refuses a metric
without an id and a delta that takes the exact sum of a counter's deltas out of the 64-bit range.
Main statement: after any writes the store has answered as the history does, and it holds for each
series what the history says, the exact sum of a counter and the last reading of a gauge.
-/
namespace Telemetry

open Decimal (FitsInt64)

namespace History

def deltas (id : String) (history : List Metric) : List Int :=
  history.filterMap fun m =>
    match m.value with
    | .counter delta => if m.id = id then some delta.toInt else none
    | .gauge _ => none

def total (id : String) (history : List Metric) : Int := (deltas id history).sum

def readings (id : String) (history : List Metric) : List Binary64 :=
  history.filterMap fun m =>
    match m.value with
    | .gauge reading => if m.id = id then some reading else none
    | .counter _ => none

def refusal? (m : Metric) (history : List Metric) : Option StoreFault :=
  if m.id = "" then some (.invalid .emptyId)
  else match m.value with
    | .gauge _ => none
    | .counter delta =>
      if FitsInt64 (total m.id history + delta.toInt) then none else some (.overflow m.id)

def update (m : Metric) (history : List Metric) : Except StoreFault Unit × List Metric :=
  match refusal? m history with
  | some fault => (.error fault, history)
  | none => (.ok (), history ++ [m])

def write : Write → List Metric → Except StoreFault Unit × List Metric
  | .update m => update m
  | .batch ms => updateEach update ms

theorem mem_deltas {id : String} {history : List Metric} {delta : Int} :
    delta ∈ deltas id history ↔ ∃ d : Int64, d.toInt = delta ∧ ⟨id, .counter d⟩ ∈ history := by
  simp only [deltas, List.mem_filterMap]
  constructor
  · rintro ⟨⟨id', value⟩, member, found⟩
    cases value with
    | gauge reading => cases found
    | counter d =>
      simp only [Option.ite_none_right_eq_some, Option.some.injEq] at found
      obtain ⟨rfl, rfl⟩ := found
      exact ⟨d, rfl, member⟩
  · rintro ⟨d, rfl, member⟩
    exact ⟨_, member, by simp⟩

theorem mem_readings {id : String} {history : List Metric} {reading : Binary64} :
    reading ∈ readings id history ↔ ⟨id, .gauge reading⟩ ∈ history := by
  simp only [readings, List.mem_filterMap]
  constructor
  · rintro ⟨⟨id', value⟩, member, found⟩
    cases value with
    | counter d => cases found
    | gauge reading' =>
      simp only [Option.ite_none_right_eq_some, Option.some.injEq] at found
      obtain ⟨rfl, rfl⟩ := found
      exact member
  · intro member
    exact ⟨_, member, by simp⟩

end History

namespace Memory

open History (deltas total readings refusal?)

structure Records (memory : Memory) (history : List Metric) : Prop where
  counters : ∀ id, (memory.counters.get? id).map Int64.toInt =
    if deltas id history = [] then none else some (total id history)
  gauges : ∀ id, memory.gauges.get? id = (readings id history).getLast?

theorem records_empty : Records {} [] := ⟨fun _ => rfl, fun _ => rfl⟩

namespace Records

variable {memory : Memory} {history : List Metric}

theorem toInt_total (records : memory.Records history) (id : String) :
    ((memory.counters.get? id).getD 0).toInt = total id history := by
  have counter := records.counters id
  cases there : memory.counters.get? id with
  | none =>
    by_cases untouched : deltas id history = []
    · simp [total, untouched]
    · simp [there, untouched] at counter
  | some value =>
    by_cases untouched : deltas id history = []
    · simp [there, untouched] at counter
    · simpa [there, untouched] using counter

theorem append_gauge (records : memory.Records history) (id : String) (reading : Binary64) :
    Records { memory with gauges := memory.gauges.put id reading }
      (history ++ [⟨id, .gauge reading⟩]) := by
  constructor
  · intro other
    simpa [deltas, total] using records.counters other
  · intro other
    rw [Table.get?_put]
    by_cases same : other = id
    · simp [readings, same]
    · have differ : id ≠ other := fun h => same h.symm
      simpa [readings, same, differ] using records.gauges other

theorem append_counter (records : memory.Records history) {id : String} {delta sum : Int64}
    (exact : sum.toInt = total id history + delta.toInt) :
    Records { memory with counters := memory.counters.put id sum }
      (history ++ [⟨id, .counter delta⟩]) := by
  constructor
  · intro other
    rw [Table.get?_put]
    by_cases same : other = id
    · simp [deltas, total, same] at exact ⊢
      exact exact
    · have differ : id ≠ other := fun h => same h.symm
      simpa [deltas, total, same, differ] using records.counters other
  · intro other
    simpa [readings] using records.gauges other

/-- One metric: the store answers as the history does, and goes on holding what it says. -/
theorem update_related (records : memory.Records history) (m : Metric) :
    (update m memory).1 = (History.update m history).1 ∧
      Records (update m memory).2 (History.update m history).2 := by
  by_cases unnamed : m.id = ""
  · rw [update_of_unnamed unnamed]
    simp only [History.update, refusal?, if_pos unnamed]
    exact ⟨trivial, records⟩
  obtain ⟨id, value⟩ := m
  cases value with
  | gauge reading =>
    rw [update_gauge unnamed rfl]
    simp only [History.update, refusal?, if_neg unnamed]
    exact ⟨trivial, records.append_gauge id reading⟩
  | counter delta =>
    rw [update_counter unnamed rfl]
    simp only [History.update, refusal?, if_neg unnamed]
    cases sum : sum? ((memory.counters.get? id).getD 0) delta with
    | none =>
      have overflow := Decimal.toInt64?_eq_none.1 sum
      rw [records.toInt_total] at overflow
      simp only [if_neg overflow]
      exact ⟨trivial, records⟩
    | some next =>
      have exact := Decimal.toInt64?_eq_some.1 sum
      rw [records.toInt_total] at exact
      have fits : FitsInt64 (total id history + delta.toInt) := exact ▸ Decimal.fitsInt64_toInt next
      simp only [if_pos fits]
      exact ⟨trivial, records.append_counter exact⟩

theorem write_related (records : memory.Records history) (write : Write) :
    (storage.write write memory).1 = (History.write write history).1 ∧
      Records (storage.write write memory).2 (History.write write history).2 := by
  cases write with
  | update m => exact records.update_related m
  | batch ms =>
    exact updateEach_related (R := Records) (fun m _ _ _ records => records.update_related m)
      records

theorem lookup_counter (records : memory.Records history) {id : String} {value : Value}
    (there : memory.lookup ⟨id, .counter⟩ = some value) :
    deltas id history ≠ [] ∧
      ∃ sum : Int64, value = .counter sum ∧ sum.toInt = total id history := by
  obtain ⟨sum, found, rfl⟩ := Option.map_eq_some_iff.1 there
  have counter := records.counters id
  rw [found] at counter
  by_cases untouched : deltas id history = []
  · simp [untouched] at counter
  · refine ⟨untouched, sum, rfl, ?_⟩
    simpa [untouched] using counter

theorem lookup_gauge (records : memory.Records history) {id : String} {value : Value}
    (there : memory.lookup ⟨id, .gauge⟩ = some value) :
    ∃ reading, value = .gauge reading ∧ (readings id history).getLast? = some reading := by
  obtain ⟨reading, found, rfl⟩ := Option.map_eq_some_iff.1 there
  exact ⟨reading, rfl, (records.gauges id).symm.trans found⟩

theorem lookup_iff (records : memory.Records history) (key : Key) :
    (∃ value, memory.lookup key = some value) ↔ ∃ m ∈ history, m.key = key := by
  obtain ⟨id, kind⟩ := key
  cases kind with
  | gauge =>
    constructor
    · rintro ⟨value, there⟩
      obtain ⟨reading, rfl, last⟩ := records.lookup_gauge there
      exact ⟨_, History.mem_readings.1 (List.mem_of_getLast? last), rfl⟩
    · rintro ⟨⟨id', reading | delta⟩, member, same⟩
      · cases same
        have some := List.ne_nil_of_mem (History.mem_readings.2 member)
        obtain ⟨last, found⟩ := Option.ne_none_iff_exists'.1 (mt List.getLast?_eq_none_iff.1 some)
        exact ⟨.gauge last, by simp [lookup, records.gauges, found]⟩
      · cases same
  | counter =>
    constructor
    · rintro ⟨value, there⟩
      obtain ⟨delta, member⟩ := List.exists_mem_of_ne_nil _ (records.lookup_counter there).1
      obtain ⟨d, -, taken⟩ := History.mem_deltas.1 member
      exact ⟨_, taken, rfl⟩
    · rintro ⟨⟨id', reading | delta⟩, member, same⟩
      · cases same
      · cases same
        have some := List.ne_nil_of_mem (History.mem_deltas.2 ⟨delta, rfl, member⟩)
        have counter := records.counters id'
        rw [if_neg some] at counter
        obtain ⟨sum, found, -⟩ := Option.map_eq_some_iff.1 counter
        exact ⟨.counter sum, by simp [lookup, found]⟩

theorem refusal?_eq_none_iff {m : Metric} :
    refusal? m history = none ↔ m.id ≠ "" ∧
      ∀ delta, m.value = .counter delta → FitsInt64 (total m.id history + delta.toInt) := by
  unfold refusal?
  by_cases unnamed : m.id = ""
  · simp [unnamed]
  cases m.value <;> simp [unnamed]

theorem update_ok_iff (records : memory.Records history) (m : Metric) :
    (storage.update m memory).1 = .ok () ↔ m.id ≠ "" ∧
      ∀ delta, m.value = .counter delta → FitsInt64 (total m.id history + delta.toInt) := by
  rw [← refusal?_eq_none_iff, show storage.update m memory = update m memory from rfl,
    (records.update_related m).1, History.update]
  cases refusal? m history <;> simp

end Records

/-- What a store shows after the metrics of a history, and how it goes on from there. -/
structure Shows (memory : Memory) (contents : Contents) (history : List Metric) : Prop where
  keys : ∀ key, (∃ value, (key, value) ∈ contents.entries) ↔ ∃ m ∈ history, m.key = key
  counter : ∀ id value, (⟨id, .counter⟩, value) ∈ contents.entries →
    ∃ sum : Int64, value = .counter sum ∧ sum.toInt = total id history
  gauge : ∀ id value, (⟨id, .gauge⟩, value) ∈ contents.entries →
    ∃ reading, value = .gauge reading ∧ (readings id history).getLast? = some reading
  get : ∀ key m, storage.get key memory = .ok m ↔
    ∃ value, (key, value) ∈ contents.entries ∧ m = ⟨key.id, value⟩
  missing : ∀ key, storage.get key memory = .error (.notFound key) ↔
    ∀ value, (key, value) ∉ contents.entries
  size : memory.size = contents.entries.length
  isolated : ∀ m key, key ≠ m.key →
    storage.get key (storage.update m memory).2 = storage.get key memory
  applies_iff : ∀ m, (storage.update m memory).1 = .ok () ↔ m.id ≠ "" ∧
    ∀ delta, m.value = .counter delta → FitsInt64 (total m.id history + delta.toInt)
  refused : ∀ m fault, (storage.update m memory).1 = .error fault →
    (storage.update m memory).2 = memory
  batch_fails_iff : ∀ ms fault after, storage.updateBatch ms memory = (.error fault, after) ↔
    ∃ front m rest, ms = front ++ m :: rest ∧
      updateEach storage.update front memory = (.ok (), after) ∧
      storage.update m after = (.error fault, after)

theorem Records.shows {memory : Memory} {history : List Metric} (records : memory.Records history) :
    memory.Shows memory.contents history where
  keys key := by
    simp only [Table.mem_entries_iff, get?_contents]
    exact records.lookup_iff key
  counter id value member := by
    rw [Table.mem_entries_iff, get?_contents] at member
    exact (records.lookup_counter member).2
  gauge id value member := by
    rw [Table.mem_entries_iff, get?_contents] at member
    exact records.lookup_gauge member
  get key m := by
    simp only [Table.mem_entries_iff, get?_contents]
    exact get_eq_ok_iff
  missing key := by
    simp only [Table.mem_entries_iff, get?_contents]
    exact get_eq_notFound_iff.trans Option.eq_none_iff_forall_ne_some
  size := (size_contents memory).symm
  isolated m key other := get_update_of_ne other memory
  applies_iff := records.update_ok_iff
  refused m fault := snd_update_of_error
  batch_fails_iff ms fault after := updateEach_error_iff.trans stopsAt_iff

/-- A store in memory that starts empty answers every write as the history of the metrics that it
has taken does, and shows what that history says. -/
theorem run_shows_history (writes : List Write) :
    (runAll storage.write writes {}).1 = (runAll History.write writes []).1 ∧
    ∃ contents, storage.all (runAll storage.write writes {}).2 = .ok contents ∧
      Shows (runAll storage.write writes {}).2 contents (runAll History.write writes []).2 := by
  obtain ⟨answers, records⟩ :=
    runAll_related (R := Records) (f := storage.write) (g := History.write)
      (fun write _ _ records => records.write_related write) writes records_empty
  exact ⟨answers, _, rfl, records.shows⟩

end Memory
end Telemetry
