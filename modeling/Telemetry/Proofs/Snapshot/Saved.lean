import Telemetry.Proofs.Bytes
import Telemetry.Proofs.Snapshot.Steps
import Telemetry.Proofs.Store.Keeping

/-!
Saves that may fail at any step, or be broken off. Main statements: a save ends with the whole of
the new file and nothing beside it, or with an error and the file as it was; wherever it is broken
off, the file is the old one or the new one; and what is saved is what the store lists, each series
once and in one order, however the store has come to hold them.
-/
namespace Telemetry

namespace Snapshot

open Files (parts parent?)

/-- What a step that fails, or that the program does not come to the end of, may leave: the files as
they were, some of the directories, or the front of the bytes. -/
inductive Step.Breaks (files : Files) : Step → Files → Prop
  | untouched (step : Step) : Breaks files step files
  | directories {path : String} {made : Files} (count : Nat)
      (makes : ((Files.ancestors path ++ [path]).take count).foldlM Files.makeDirectory files =
        .ok made) :
      Breaks files (.makeDirectories path) made
  | front (path : String) (bytes : Bytes) (count : Nat) :
      Breaks files (.write path bytes) (files.set path (.file (bytes.take count)))

inductive Runs : List Step → Files → Except StoreFault Unit → Files → Prop
  | done (files : Files) : Runs [] files (.ok ()) files
  | step {step : Step} {rest : List Step} {now next after : Files} {result : Except StoreFault Unit}
      (ran : step.run now = .ok next) (later : Runs rest next result after) :
      Runs (step :: rest) now result after
  | fails {step : Step} {now left : Files} (rest : List Step) (breaks : step.Breaks now left) :
      Runs (step :: rest) now (.error (.snapshotFile step.path)) left

/-- What steps leave that are broken off, before one of them, in the middle of it or after the last
one. -/
inductive Stops : List Step → Files → Files → Prop
  | here (todo : List Step) (files : Files) : Stops todo files files
  | inside {step : Step} {now left : Files} (rest : List Step) (breaks : step.Breaks now left) :
      Stops (step :: rest) now left
  | later {step : Step} {rest : List Step} {now next left : Files} (ran : step.run now = .ok next)
      (stops : Stops rest next left) : Stops (step :: rest) now left

variable {path : String} {bytes : Bytes} {step : Step} {rest todo : List Step}
  {start now next left after : Files} {result : Except StoreFault Unit}

theorem runs_runSteps (todo : List Step) (files : Files) :
    Runs todo files (runSteps todo files).1 (runSteps todo files).2 := by
  induction todo generalizing files with
  | nil => exact .done files
  | cons step rest ih =>
    unfold runSteps
    cases ran : step.run files with
    | ok next => exact .step ran (ih next)
    | error fault => exact .fails rest (.untouched step)

/-! ### Paths -/

theorem parts_temporary_ne (path : String) : parts (temporary path) ≠ parts path := by
  obtain ⟨front, last, before, after⟩ := @Text.split_append_absent '/' ".tmp" (by decide) path
  have long : 4 ≤ (last ++ ".tmp").length := by
    rw [String.length_append]
    exact Nat.le_add_left 4 _
  have differs : ∀ other : String, other.length < 4 → last ++ ".tmp" ≠ other := by
    rintro other short rfl
    exact Nat.not_le_of_lt short long
  have longer : last ++ ".tmp" ≠ last := by
    intro same
    have length := congrArg String.length same
    have suffix : ".tmp".length = 4 := rfl
    rw [String.length_append, suffix] at length
    omega
  have kept : ([last ++ ".tmp"].filter fun part => decide (part ≠ "" ∧ part ≠ ".")) =
      [last ++ ".tmp"] := by
    simp [differs "" (by decide), differs "." (by decide)]
  intro same
  simp only [temporary, parts, before, after, List.filter_append] at same
  rw [kept] at same
  have member : last ++ ".tmp" ∈ [last].filter fun part => decide (part ≠ "" ∧ part ≠ ".") := by
    rw [← List.append_cancel_left same]
    exact List.mem_singleton_self _
  exact longer (List.mem_singleton.1 (List.mem_filter.1 member).1)

/-! ### One step after the other -/

def Spares (path : String) (before after : Files) : Prop :=
  ∀ other, parts other ≠ parts path → parts other ≠ parts (temporary path) →
    after.file? other = before.file? other

/-- A save before its last step: of the files that were there when it started, it has touched none
but the one beside the path. -/
structure Underway (path : String) (bytes : Bytes) (start now : Files) (todo : List Step) :
    Prop where
  part : todo <:+ steps path bytes
  target : now.node? path = start.node? path
  others : Spares path start now
  filled : .write (temporary path) bytes ∉ todo → now.node? (temporary path) = some (.file bytes)

structure Landed (path : String) (bytes : Bytes) (start after : Files) : Prop where
  target : after.node? path = some (.file bytes)
  beside : after.node? (temporary path) = none
  others : Spares path start after

theorem underway_start (path : String) (bytes : Bytes) (files : Files) :
    Underway path bytes files files (steps path bytes) where
  part := List.suffix_refl _
  target := rfl
  others _ _ _ := rfl
  filled unwritten := absurd (by simp [steps]) unwritten

theorem Underway.set_temporary (underway : Underway path bytes start now todo) (node : Node) :
    (now.set (temporary path) node).node? path = start.node? path ∧
      Spares path start (now.set (temporary path) node) := by
  constructor
  · rw [Files.node?_set, if_neg (parts_temporary_ne path).symm]
    exact underway.target
  · intro other notPath notBeside
    have same : (now.set (temporary path) node).node? other = now.node? other := by
      rw [Files.node?_set, if_neg notBeside]
    rw [Files.file?_eq_of_node? same]
    exact underway.others other notPath notBeside

theorem Underway.makeDirectories (underway : Underway path bytes start now todo) {parent : String}
    (above : parent? path = some parent) {places : List String}
    (part : ∀ place ∈ places, place ∈ Files.ancestors parent ++ [parent])
    (makes : places.foldlM Files.makeDirectory now = .ok next) :
    next.node? path = start.node? path ∧ Spares path start next := by
  have adds := Files.foldlM_makeDirectory_adds makes
  constructor
  · rw [adds.node? path, underway.target]
    intro place member same
    have shorter := Files.length_parts_of_mem_makeDirectories above (part place member)
    rw [same] at shorter
    exact Nat.lt_irrefl _ shorter
  · intro other notPath notBeside
    rw [adds.file?]
    exact underway.others other notPath notBeside

/-- One step on: the last one makes the new file of the old one, and those before it do not touch
it. -/
theorem Underway.advances (underway : Underway path bytes start now (step :: rest))
    (ran : step.run now = .ok next) :
    rest ≠ [] ∧ Underway path bytes start next rest ∨ rest = [] ∧ Landed path bytes start next := by
  have part : rest <:+ steps path bytes := (List.suffix_cons step rest).trans underway.part
  cases upcoming_of_suffix underway.part with
  | directories above =>
    obtain ⟨target, others⟩ := underway.makeDirectories above (fun _ member => member) ran
    exact .inl ⟨by simp [puts], part, target, others, by simp [puts]⟩
  | create =>
    have made : next = now.set (temporary path) (.file []) := by
      simp only [Step.run, Files.create] at ran
      split at ran <;> cases ran
      rfl
    subst made
    obtain ⟨target, others⟩ := underway.set_temporary (.file [])
    exact .inl ⟨by simp [puts], part, target, others, by simp [puts]⟩
  | write =>
    cases ran
    obtain ⟨target, others⟩ := underway.set_temporary (.file bytes)
    exact .inl ⟨by simp [puts], part, target, others, fun _ => Files.node?_set_self _ _⟩
  | sync =>
    cases ran
    exact .inl ⟨by simp [puts], part, underway.target, underway.others,
      fun _ => underway.filled (by simp [puts])⟩
  | rename =>
    have filled := underway.filled (by simp)
    have moved : next = (now.remove (temporary path)).set path (.file bytes) := by
      simp only [Step.run, Files.rename, filled] at ran
      split at ran <;> simp_all
    subst moved
    refine .inr ⟨rfl, Files.node?_set_self _ _, ?_, ?_⟩
    · rw [Files.node?_set, if_neg (parts_temporary_ne path), Files.node?_remove, if_pos rfl]
    · intro other notPath notBeside
      have same : ((now.remove (temporary path)).set path (.file bytes)).node? other =
          now.node? other := by
        rw [Files.node?_set, if_neg notPath, Files.node?_remove, if_neg notBeside]
      rw [Files.file?_eq_of_node? same]
      exact underway.others other notPath notBeside

theorem Underway.breaks (underway : Underway path bytes start now (step :: rest))
    (breaks : step.Breaks now left) :
    left.node? path = start.node? path := by
  cases breaks with
  | untouched => exact underway.target
  | directories count makes =>
    cases upcoming_of_suffix underway.part with
    | directories above =>
      exact (underway.makeDirectories above (fun _ member => List.mem_of_mem_take member) makes).1
  | front path bytes count =>
    cases upcoming_of_suffix underway.part with
    | write => exact (underway.set_temporary _).1

theorem Underway.runs (underway : Underway path bytes start now todo) (some : todo ≠ [])
    (runs : Runs todo now result after) :
    result = .ok () ∧ Landed path bytes start after ∨
      (∃ place, result = .error (.snapshotFile place)) ∧ after.node? path = start.node? path := by
  induction runs with
  | done => exact absurd rfl some
  | fails rest breaks => exact .inr ⟨⟨_, rfl⟩, underway.breaks breaks⟩
  | step ran later ih =>
    rcases underway.advances ran with ⟨more, underway⟩ | ⟨rfl, landed⟩
    · exact ih underway more
    · cases later
      exact .inl ⟨rfl, landed⟩

theorem Underway.stops (underway : Underway path bytes start now todo) (some : todo ≠ [])
    (stops : Stops todo now left) :
    left.node? path = start.node? path ∨ left.node? path = .some (.file bytes) := by
  induction stops with
  | here => exact .inl underway.target
  | inside rest breaks => exact .inl (underway.breaks breaks)
  | later ran later ih =>
    rcases underway.advances ran with ⟨more, underway⟩ | ⟨rfl, landed⟩
    · exact ih underway more
    · cases later
      exact .inr landed.target

end Snapshot

/-! ### What is saved -/

namespace Metric

/-- The order of the series in a file: by the bytes of their ids, and a gauge before a counter of
the same id. -/
def Precedes (a b : Metric) : Prop :=
  Bytes.ofText a.id < Bytes.ofText b.id ∨ a.id = b.id ∧ a.kind = .gauge ∧ b.kind = .counter

end Metric

structure Memory.Lists (memory : Memory) (ms : List Metric) : Prop where
  ascending : ms.Pairwise Metric.Precedes
  whole : ∀ m, m ∈ ms ↔ memory.lookup m.key = some m.value
  count : ms.length = memory.size

namespace Memory

theorem lists_metrics (memory : Memory) : memory.Lists memory.contents.metrics where
  ascending := by
    rw [Contents.metrics, List.pairwise_map]
    refine memory.contents.sorted.imp_of_mem ?_
    intro first second listed listedNext before
    have kind : first.2.kind = first.1.kind := kind_of_lookup (mem_contents_iff.1 listed)
    have kindNext : second.2.kind = second.1.kind := kind_of_lookup (mem_contents_iff.1 listedNext)
    rcases before with below | ⟨same, gauge, counter⟩
    · exact .inl (Bytes.ofText_lt_iff.2 below)
    · exact .inr ⟨same, kind.trans gauge, kindNext.trans counter⟩
  whole m := mem_metrics_iff
  count := by
    rw [Contents.metrics, List.length_map]
    exact size_contents memory

/-- The list of all series, made of the gauges and the counters in some order. -/
def collect (gauges : List (String × Binary64)) (counters : List (String × Int64)) : Contents :=
  Table.enterAll (fun id => ⟨id, .counter⟩) .counter counters
    (Table.enterAll (fun id => ⟨id, .gauge⟩) .gauge gauges .empty)

structure IsCanonical (memory : Memory) : Prop where
  /-- The order in which the series are gone through makes no difference. -/
  anyOrder : ∀ gauges counters, gauges.Perm memory.gauges.entries →
    counters.Perm memory.counters.entries →
    collect gauges counters = memory.contents
  /-- Nor does the way in which the store has come to hold them. -/
  sameFile : ∀ other : Memory, (∀ key, other.lookup key = memory.lookup key) →
    Snapshot.bytes other.contents = Snapshot.bytes memory.contents

theorem isCanonical (memory : Memory) : memory.IsCanonical where
  anyOrder := by
    intro gauges counters gaugesPerm countersPerm
    rw [collect, Table.enterAll_perm gaugeKey_injective _ gaugesPerm,
      Table.enterAll_perm counterKey_injective _ countersPerm, contents_eq_enterAll]
  sameFile := by
    intro other alike
    apply congrArg Snapshot.bytes
    apply Table.ext_get?
    intro key
    rw [get?_contents, get?_contents, alike key]

end Memory

namespace Snapshot

inductive Ends (path : String) (listed : Except StoreFault Contents) (files : Files) :
    Except StoreFault Nat → Files → Prop
  | unlisted {fault : StoreFault} (none : listed = .error fault) :
      Ends path listed files (.error fault) files
  | ran {contents : Contents} {result : Except StoreFault Unit} {after : Files}
      (all : listed = .ok contents) (runs : Runs (steps path (bytes contents)) files result after) :
      Ends path listed files (result.map fun _ => contents.size) after

theorem ends_save (path : String) (listed : Except StoreFault Contents) (files : Files) :
    Ends path listed files (save path listed files).1 (save path listed files).2 := by
  cases listed with
  | error fault => exact .unlisted rfl
  | ok contents =>
    have runs := runs_runSteps (steps path (bytes contents)) files
    rw [save_eq]
    generalize runSteps (steps path (bytes contents)) files = outcome at runs ⊢
    exact .ran rfl runs

/-- The file at a path is what it is to be once a store has been saved: its series in their order,
and nothing is left beside it. -/
def Replaced (path : String) (memory : Memory) (start after : Files) : Prop :=
  ∃ ms, memory.Lists ms ∧ Landed path (Metric.listToJson ms) start after

/-- What is known of a save at a path, of a store that lists `listed` and has the series of `store`.
-/
structure SavesWhole (path : String) (listed : Except StoreFault Contents) (store : Option Memory)
    (files : Files) :
    Prop where
  /-- With any steps failing, it ends with the new file or with the old one. -/
  ends : ∀ result after, Ends path listed files result after →
    (∃ memory, store = some memory ∧ result = .ok memory.size ∧ Replaced path memory files after) ∨
      (∃ fault, result = .error fault) ∧ after.node? path = files.node? path
  /-- Broken off anywhere, it leaves the old file or the new one. -/
  stops : ∀ contents left, listed = .ok contents → Stops (steps path (bytes contents)) files left →
    left.node? path = files.node? path ∨
      ∃ memory ms, store = some memory ∧ memory.Lists ms ∧
        left.node? path = some (.file (Metric.listToJson ms))
  runs : Ends path listed files (save path listed files).1 (save path listed files).2
  /-- It does not fail where the store lists its series and a file can be put. -/
  succeeds : ∀ place : Place, place.path = path → Hosts files place →
    ∀ contents, listed = .ok contents →
    (save path listed files).1 = .ok contents.size

theorem savesWhole_of_lists {path : String} {listed : Except StoreFault Contents}
    {store : Option Memory} {files : Files}
    (lists : ∀ contents, listed = .ok contents → ∃ memory, store = some memory ∧
      memory.contents = contents) :
    SavesWhole path listed store files where
  ends := by
    intro result after ended
    cases ended with
    | unlisted none => exact .inr ⟨⟨_, rfl⟩, rfl⟩
    | ran all runs =>
      obtain ⟨memory, same, rfl⟩ := lists _ all
      have some : steps path (bytes memory.contents) ≠ [] := by simp [steps]
      rcases (underway_start path (bytes memory.contents) files).runs some runs with
        ⟨rfl, landed⟩ | ⟨⟨place, rfl⟩, old⟩
      · refine .inl ⟨memory, same, ?_, memory.contents.metrics, memory.lists_metrics, landed⟩
        rw [map_ok, Memory.size_contents]
      · exact .inr ⟨⟨_, rfl⟩, old⟩
  stops := by
    intro contents left all stops
    obtain ⟨memory, same, rfl⟩ := lists _ all
    have some : steps path (bytes memory.contents) ≠ [] := by simp [steps]
    apply ((underway_start path (bytes memory.contents) files).stops some stops).imp_right
    intro new
    exact ⟨memory, memory.contents.metrics, same, memory.lists_metrics, new⟩
  runs := ends_save path listed files
  succeeds := by
    rintro place rfl hosts contents rfl
    obtain ⟨after, saved, -⟩ := save_ok hosts contents
    rw [saved]

/-- A save ends with the whole of the new file, or with an error and the file as it was, and
wherever it is broken off the file is one of the two. What it says depends on nothing but the series
of the store. -/
theorem saves_are_whole (path : String) (files : Files) :
    (∀ memory : Memory, SavesWhole path (Memory.storage.all memory) (some memory) files) ∧
      (∀ (schedule : Retry.Schedule) (database : Database),
        SavesWhole path ((Database.storage schedule).all database) database.tables files) ∧
      ∀ memory : Memory, memory.IsCanonical := by
  refine ⟨?_, ?_, Memory.isCanonical⟩
  · intro memory
    apply savesWhole_of_lists
    rintro contents ⟨⟩
    exact ⟨memory, rfl, rfl⟩
  · intro schedule database
    apply savesWhole_of_lists
    intro contents all
    obtain ⟨tables, rfl, same⟩ := Database.all_eq_ok_iff.1 all
    exact ⟨tables, rfl, same⟩

end Snapshot
end Telemetry
