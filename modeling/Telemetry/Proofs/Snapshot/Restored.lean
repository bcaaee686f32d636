import Telemetry.Proofs.Metric.Wire
import Telemetry.Proofs.Snapshot.Steps
import Telemetry.Proofs.Store.Agreement

namespace Telemetry

/-! ### Contents -/

namespace Contents

theorem update_absent {key : Key} {value : Value} (named : key.id ≠ "")
    (kind : value.kind = key.kind) {contents : Contents} (absent : contents.get? key = none) :
    update ⟨key.id, value⟩ contents = (.ok (), contents.put key value) := by
  obtain ⟨id, sort⟩ := key
  cases kind
  cases value with
  | gauge reading => exact update_gauge named reading contents
  | counter delta =>
    have none : contents.total id = 0 := by
      rw [total]
      change contents.get? ⟨id, .counter⟩ = none at absent
      rw [absent]
    rw [update_counter named, none, Memory.sum?_zero]

theorem updateEach_entries {entries : List (Key × Value)} (sorted : Table.Sorted entries)
    (named : ∀ entry ∈ entries, entry.1.id ≠ "")
    (kinds : ∀ entry ∈ entries, entry.2.kind = entry.1.kind) {contents : Contents}
    (absent : ∀ entry ∈ entries, contents.get? entry.1 = none) :
    updateEach update (entries.map fun entry => ⟨entry.1.id, entry.2⟩) contents =
      (.ok (), Table.enterAll id id entries contents) := by
  induction entries generalizing contents with
  | nil => rfl
  | cons first rest ih =>
    obtain ⟨below, sortedRest⟩ := List.pairwise_cons.1 sorted
    simp only [List.forall_mem_cons] at named kinds absent
    have entered := update_absent named.1 kinds.1 absent.1
    have stillAbsent : ∀ entry ∈ rest, (contents.put first.1 first.2).get? entry.1 = none := by
      intro entry member
      rw [Table.get?_put_of_ne _ (Table.ne_of_lt (below entry member)).symm]
      exact absent.2 entry member
    rw [List.map_cons, updateEach_cons_ok entered, ih sortedRest named.2 kinds.2 stillAbsent]
    rfl

end Contents

namespace Memory

variable {memory : Memory}

def IsNamed (memory : Memory) : Prop := ∀ key value, memory.lookup key = some value → key.id ≠ ""

theorem isNamed_empty : IsNamed {} := by
  rintro ⟨id, kind⟩ value there
  cases kind <;> cases there

theorem IsNamed.update (named : memory.IsNamed) (m : Metric) : (update m memory).2.IsNamed := by
  intro key value there
  by_cases own : key = m.key
  · by_cases unnamed : m.id = ""
    · rw [update_of_unnamed unnamed] at there
      exact named key value there
    · rw [own]
      exact unnamed
  · rw [lookup_update_of_ne own] at there
    exact named key value there

theorem IsNamed.write (named : memory.IsNamed) (write : Write) :
    (storage.write write memory).2.IsNamed := by
  cases write with
  | update m => exact named.update m
  | batch ms => exact updateEach_keeps (P := IsNamed) (fun m _ _ named => named.update m) named

/-- Whatever is written to a store in memory, no series of it has an empty id. -/
theorem isNamed_runAll (writes : List Write) : (runAll storage.write writes {}).2.IsNamed :=
  runAll_keeps (P := IsNamed) (fun write _ _ named => named.write write) isNamed_empty

theorem named_metrics (named : memory.IsNamed) : ∀ m ∈ memory.contents.metrics, m.id ≠ "" := by
  intro m member
  obtain ⟨⟨key, value⟩, listed, rfl⟩ := List.mem_map.1 member
  exact named key value (mem_contents_iff.1 listed)

theorem isFinite_iff : memory.IsFinite ↔ ∀ m ∈ memory.contents.metrics, m.value.isFinite := by
  constructor
  · intro finite m member
    obtain ⟨⟨key, value⟩, listed, rfl⟩ := List.mem_map.1 member
    exact finite key value (mem_contents_iff.1 listed)
  · intro finite key value there
    exact finite ⟨key.id, value⟩ (List.mem_map_of_mem (mem_contents_iff.2 there))

theorem updateEach_metrics (named : memory.IsNamed) :
    ∃ restored, updateEach update memory.contents.metrics {} = (.ok (), restored) ∧
      restored.contents = memory.contents := by
  have names : ∀ entry ∈ memory.contents.entries, entry.1.id ≠ "" := by
    rintro ⟨key, value⟩ listed
    exact named key value (mem_contents_iff.1 listed)
  have kinds : ∀ entry ∈ memory.contents.entries, entry.2.kind = entry.1.kind := by
    rintro ⟨key, value⟩ listed
    exact kind_of_lookup (mem_contents_iff.1 listed)
  have entered : updateEach Contents.update memory.contents.metrics (contents {}) =
      (.ok (), Table.enterAll id id memory.contents.entries Table.empty) :=
    Contents.updateEach_entries memory.contents.sorted names kinds fun _ _ => rfl
  have whole : Table.enterAll id id memory.contents.entries Table.empty = memory.contents := by
    apply Table.ext_get?
    intro key
    have answered :=
      @Table.get?_enterAll _ _ _ _ _ _ id (fun _ _ same => same) id _ memory.contents.sorted
      key Table.empty
    rw [Table.get?_empty, Option.or_none, Option.map_id] at answered
    exact answered
  rw [updateEach_contents, whole, Prod.mk.injEq] at entered
  exact ⟨_, Prod.ext entered.1 rfl, entered.2⟩

end Memory

structure Memory.IsSound (memory : Memory) : Prop where
  named : memory.IsNamed
  finite : memory.IsFinite

namespace Memory.IsSound

theorem empty : IsSound {} where
  named := isNamed_empty
  finite := by
    rintro ⟨id, kind⟩ value there
    cases kind <;> cases there

variable {before : Memory}

theorem updateEach (sound : before.IsSound) {ms : List Metric}
    (finite : ∀ m ∈ ms, m.value.isFinite) :
    (updateEach Memory.update ms before).2.IsSound where
  named := sound.named.write (.batch ms)
  finite := sound.finite.updateEach finite

theorem update (sound : before.IsSound) {m : Metric} (finite : m.value.isFinite) :
    (update m before).2.IsSound where
  named := sound.named.update m
  finite := sound.finite.update finite

theorem write (sound : before.IsSound) {write : Write}
    (finite : Operation.IsFinite (.write write)) :
    (storage.write write before).2.IsSound := by
  cases write with
  | update m => exact sound.update finite
  | batch ms => exact sound.updateEach finite

/-- The gauges of one sound store and the counters of another. -/
theorem mix {one other : Memory} (sound : one.IsSound) (otherSound : other.IsSound) :
    IsSound ⟨one.gauges, other.counters⟩ := by
  constructor <;> rintro ⟨id, kind⟩ value there <;> cases kind
  · exact sound.named ⟨id, .gauge⟩ value there
  · exact otherSound.named ⟨id, .counter⟩ value there
  · exact sound.finite ⟨id, .gauge⟩ value there
  · exact otherSound.finite ⟨id, .counter⟩ value there

end Memory.IsSound

namespace Snapshot

/-- What is saved of a store in memory, and what an empty one has of it once it is loaded. -/
structure Restores (memory : Memory) (place : Place) (files : Files) : Prop where
  saves : (save place.path (Memory.storage.all memory) files).1 = .ok memory.size
  restores : memory.IsFinite → ∃ restored : Memory,
    load Memory.storage place.path (save place.path (Memory.storage.all memory) files).2 {} =
      (.ok memory.size, restored) ∧ Memory.storage.all restored = Memory.storage.all memory
  refuses : ¬ memory.IsFinite →
    load Memory.storage place.path (save place.path (Memory.storage.all memory) files).2 {} =
      (.error (.snapshotFormat .unfit), {})

def LoadsTo (files : Files) (place : Place) (contents : Contents) : Prop :=
  ∃ restored : Memory, load Memory.storage place.path files {} = (.ok contents.size, restored) ∧
    restored.contents = contents

variable {memory : Memory} {place : Place} {files : Files}

theorem load_of_node? {path : String} (sound : memory.IsSound)
    (there : files.node? path = some (.file (bytes memory.contents))) :
    ∃ restored : Memory, load Memory.storage path files {} = (.ok memory.contents.size, restored) ∧
      restored.contents = memory.contents := by
  have document := Metric.document_ofJson memory.contents.metrics
  rw [if_pos (fun m member => ⟨Memory.named_metrics sound.named m member,
    Memory.isFinite_iff.1 sound.finite m member⟩)] at document
  obtain ⟨restored, applied, contents⟩ := Memory.updateEach_metrics sound.named
  have count : memory.contents.metrics.length = memory.contents.size := by
    rw [Contents.metrics, List.length_map]
    rfl
  refine ⟨restored, ?_, contents⟩
  rw [← count]
  simp only [load, Files.read_of_node? there, bytes, document, Memory.storage, applied]

theorem loadsTo_of_node? (sound : memory.IsSound)
    (there : files.node? place.path = some (.file (bytes memory.contents))) :
    LoadsTo files place memory.contents :=
  load_of_node? sound there

theorem restores_of_isNamed (named : memory.IsNamed) (hosts : Hosts files place) :
    Restores memory place files := by
  obtain ⟨after, saved, -, there⟩ := save_ok hosts memory.contents
  rw [Memory.size_contents] at saved
  change save place.path (Memory.storage.all memory) files = (.ok memory.size, after) at saved
  refine ⟨congrArg Prod.fst saved, ?_, ?_⟩
  · intro finite
    obtain ⟨restored, loads, contents⟩ := loadsTo_of_node? ⟨named, finite⟩ there
    rw [Memory.size_contents] at loads
    refine ⟨restored, ?_, congrArg Except.ok contents⟩
    rw [saved]
    exact loads
  · intro notFinite
    have document := Metric.document_ofJson memory.contents.metrics
    rw [if_neg (fun valid =>
      notFinite (Memory.isFinite_iff.2 fun m member => (valid m member).2))] at document
    simp only [load, saved, Files.read_of_node? there, bytes, document]

end Snapshot
end Telemetry
