import Telemetry.Proofs.Metric.Document
import Telemetry.Proofs.Snapshot.Saved
import Telemetry.Proofs.Store.Doubled

/-!
Files that are loaded, whatever is in them. Main statements: a file with anything wrong in it is
refused as a whole, and any other one has the effect of a batch of its records; and a store of
finite readings that loads what was saved of it keeps its gauges and has its counters doubled,
unless one of them is too large for that.
-/
namespace Telemetry.Snapshot

open Wire (Raw)

inductive Wrong (input : Bytes) : Prop
  /-- It does not begin with one list of records. -/
  | noList (unread : ∀ raws rest, Json.list Raw.ofJson (input.length + 1) input ≠ .ok (raws, rest))
  /-- Something that is not blank follows the list. -/
  | trailing {raws : List Raw} {rest : Bytes}
      (read : Json.list Raw.ofJson (input.length + 1) input = .ok (raws, rest))
      (more : (Json.skipBlank rest).isEmpty = false)
  /-- A record, wherever it is, is none of a metric. -/
  | unfit {raws : List Raw} {raw : Raw}
      (read : Json.document (Json.list Raw.ofJson) input = .ok raws) (member : raw ∈ raws)
      (unfit : raw.Unfit)

/-- The metrics of a file: one for each of its records, in their order. -/
def Brings (input : Bytes) (ms : List Metric) : Prop :=
  ∃ raws, Json.document (Json.list Raw.ofJson) input = .ok raws ∧ List.Forall₂ Raw.Describes raws ms

theorem brings_iff {input : Bytes} {ms : List Metric} :
    Brings input ms ↔ Json.document (Json.list Metric.ofJson) input = .ok ms :=
  ((Metric.Form.settles_list input).described ms).symm

theorem forall₂_or_exists_unfit (raws : List Raw) :
    (∃ ms, List.Forall₂ Raw.Describes raws ms) ∨ ∃ raw ∈ raws, raw.Unfit := by
  induction raws with
  | nil => exact .inl ⟨[], .nil⟩
  | cons raw rest ih =>
    by_cases unfit : raw.Unfit
    · exact .inr ⟨raw, List.mem_cons_self, unfit⟩
    · rw [Raw.unfit_iff] at unfit
      push Not at unfit
      obtain ⟨m, describes⟩ := unfit
      rcases ih with ⟨ms, all⟩ | ⟨other, member, unfit⟩
      · exact .inl ⟨m :: ms, .cons describes all⟩
      · exact .inr ⟨other, List.mem_cons_of_mem _ member, unfit⟩

theorem not_unfit_of_forall₂ {raws : List Raw} {ms : List Metric}
    (describe : List.Forall₂ Raw.Describes raws ms) :
    ∀ raw ∈ raws, ¬ raw.Unfit := by
  induction describe with
  | nil => exact nofun
  | cons here later ih =>
    exact List.forall_mem_cons.2 ⟨fun unfit => Raw.unfit_iff.1 unfit _ here, ih⟩

theorem wrong_iff {input : Bytes} : Wrong input ↔ ∀ ms, ¬ Brings input ms := by
  constructor
  · rintro wrong ms ⟨raws, read, describe⟩
    obtain ⟨rest, list, blank⟩ := Json.document_eq_ok_iff.1 read
    cases wrong with
    | noList unread => exact unread raws rest list
    | trailing read' more =>
      cases list.symm.trans read'
      exact Bool.false_ne_true (more.symm.trans blank)
    | unfit read' member unfit =>
      cases read.symm.trans read'
      exact not_unfit_of_forall₂ describe _ member unfit
  · intro none
    rcases list : Json.list Raw.ofJson (input.length + 1) input with fault | ⟨raws, rest⟩
    · exact .noList fun raws rest read => by cases list.symm.trans read
    cases more : (Json.skipBlank rest).isEmpty with
    | false => exact .trailing list more
    | true =>
      have read : Json.document (Json.list Raw.ofJson) input = .ok raws :=
        Json.document_eq_ok_iff.2 ⟨rest, list, more⟩
      rcases forall₂_or_exists_unfit raws with ⟨ms, describe⟩ | ⟨raw, member, unfit⟩
      · exact absurd ⟨raws, read, describe⟩ (none ms)
      · exact .unfit read member unfit

structure LoadsWhole {σ : Type} (storage : Storage σ) (path : String) (files : Files) (state : σ) :
    Prop where
  missing : files.read path = .error .missing → load storage path files state = (.ok 0, state)
  obstructed : files.read path = .error .obstructed →
    load storage path files state = (.error (.snapshotFile path), state)
  wrong : ∀ input, files.read path = .ok input → Wrong input →
    ∃ fault, load storage path files state = (.error (.snapshotFormat fault), state)
  right : ∀ input ms, files.read path = .ok input → Brings input ms →
    load storage path files state =
      ((storage.updateBatch ms state).1.map fun _ => ms.length, (storage.updateBatch ms state).2)
  either : ∀ input, Wrong input ↔ ∀ ms, ¬ Brings input ms

theorem loadsWhole {σ : Type} (storage : Storage σ) (path : String) (files : Files) (state : σ) :
    LoadsWhole storage path files state where
  missing none := by simp only [load, none]
  obstructed other := by simp only [load, other]
  wrong input there wrong := by
    refine load_of_unread there ?_ state
    intro ms read
    exact wrong_iff.1 wrong ms (brings_iff.2 read)
  right input ms there brings := load_of_read there (brings_iff.1 brings) state
  either input := wrong_iff

/-! ### Loading what was saved -/

theorem read_of_saved {path : String} {contents : Contents} {files after : Files} {count : Nat}
    (saved : save path (.ok contents) files = (.ok count, after)) :
    after.read path = .ok (bytes contents) := by
  have some : steps path (bytes contents) ≠ [] := by simp [steps]
  have ended := (underway_start path (bytes contents) files).runs some (runs_runSteps _ files)
  rw [save_eq, Prod.mk.injEq] at saved
  obtain ⟨result, rfl⟩ := saved
  rcases ended with ⟨-, landed⟩ | ⟨⟨place, failed⟩, -⟩
  · exact Files.read_of_node? landed.target
  · rw [failed] at result
    cases result

/-- What becomes of a store that loads a file in which its own series were saved, from it or from
another store that held the same. `series` are those of a state, and `leaves` tells what a counter
that is too large twice leaves. -/
structure Reloads {σ : Type} (storage : Storage σ) (series : σ → Memory)
    (leaves : String → σ → σ → Prop) (state : σ) :
    Prop where
  doubles : ∀ contents path files count after, storage.all state = .ok contents →
    save path (.ok contents) files = (.ok count, after) → (series state).IsFinite →
      (∀ id, ¬ (series state).TooLargeTwice id) →
        ∃ next, load storage path after state = (.ok (series state).size, next) ∧
          Memory.Doubled (fun _ => True) (series state) (series next)
  overflows : ∀ contents path files count after, storage.all state = .ok contents →
    save path (.ok contents) files = (.ok count, after) → (series state).IsFinite →
      (∃ id, (series state).TooLargeTwice id) →
        ∃ id next, (series state).TooLargeTwice id ∧
          (∀ other, other < id → ¬ (series state).TooLargeTwice other) ∧
          load storage path after state = (.error (.overflow id), next) ∧ leaves id state next
  /-- A reading that is not finite is no value in the file. -/
  notFinite : ∀ contents path files count after, storage.all state = .ok contents →
    save path (.ok contents) files = (.ok count, after) → ¬ (series state).IsFinite →
      Wrong (bytes contents) ∧
      load storage path after state = (.error (.snapshotFormat .unfit), state)

variable {σ : Type} {storage : Storage σ} {memory : Memory} {path : String} {files after : Files}
  {count : Nat}

theorem length_metrics (memory : Memory) : memory.contents.metrics.length = memory.size :=
  memory.lists_metrics.count

/-- Finite series come back from a file as they are. -/
theorem load_saved (named : memory.IsNamed) (finite : memory.IsFinite)
    (saved : save path (.ok memory.contents) files = (.ok count, after)) (state : σ) :
    load storage path after state =
      ((storage.updateBatch memory.contents.metrics state).1.map fun _ => memory.size,
        (storage.updateBatch memory.contents.metrics state).2) := by
  have valid : ∀ m ∈ memory.contents.metrics, m.id ≠ "" ∧ m.value.isFinite = true := by
    intro m member
    exact ⟨Memory.named_metrics named m member, Memory.isFinite_iff.1 finite m member⟩
  have read := (Metric.document_ofJson memory.contents.metrics).trans (if_pos valid)
  rw [load_of_read (read_of_saved saved) read, length_metrics]

theorem document_of_notFinite (notFinite : ¬ memory.IsFinite) :
    Json.document (Json.list Metric.ofJson) (bytes memory.contents) = .error .unfit := by
  have invalid : ¬ ∀ m ∈ memory.contents.metrics, m.id ≠ "" ∧ m.value.isFinite = true :=
    fun valid => notFinite (Memory.isFinite_iff.2 fun m member => (valid m member).2)
  exact (Metric.document_ofJson memory.contents.metrics).trans (if_neg invalid)

theorem reloads_of_batch {series : σ → Memory} {leaves : String → σ → σ → Prop} {state : σ}
    (named : (series state).IsNamed) (lists : storage.all state = .ok (series state).contents)
    (batch : (series state).IsFinite →
      (∃ next, storage.updateBatch (series state).contents.metrics state = (.ok (), next) ∧
        (∀ id, ¬ (series state).TooLargeTwice id) ∧
          Memory.Doubled (fun _ => True) (series state) (series next)) ∨
      ∃ id next, storage.updateBatch (series state).contents.metrics state =
        (.error (.overflow id), next) ∧
        (series state).TooLargeTwice id ∧
        (∀ other, other < id → ¬ (series state).TooLargeTwice other) ∧
          leaves id state next) :
    Reloads storage series leaves state where
  doubles := by
    intro contents path files count after listed saved finite fits
    cases lists.symm.trans listed
    rw [load_saved named finite saved]
    rcases batch finite with ⟨next, taken, -, doubled⟩ | ⟨id, next, -, tooLarge, -⟩
    · exact ⟨next, by rw [taken]; rfl, doubled⟩
    · exact absurd tooLarge (fits id)
  overflows := by
    rintro contents path files count after listed saved finite ⟨id, tooLarge⟩
    cases lists.symm.trans listed
    rw [load_saved named finite saved]
    rcases batch finite with ⟨next, -, fits, -⟩ | ⟨id, next, refused, tooLarge, first, left⟩
    · exact absurd tooLarge (fits id)
    · exact ⟨id, next, tooLarge, first, by rw [refused]; rfl, left⟩
  notFinite := by
    intro contents path files count after listed saved notFinite
    cases lists.symm.trans listed
    have unread := document_of_notFinite notFinite
    constructor
    · refine wrong_iff.2 fun ms brings => ?_
      cases unread.symm.trans (brings_iff.1 brings)
    · simp only [load, read_of_saved saved, unread]

theorem reloads_memory (named : memory.IsNamed) :
    Reloads Memory.storage id (fun id => Memory.Doubled (· < id)) memory := by
  apply reloads_of_batch named rfl
  intro finite
  have own := Memory.updateEach_own named
  change (∃ next, updateEach Memory.update memory.contents.metrics memory = (.ok (), next) ∧ _) ∨
    ∃ id next, updateEach Memory.update memory.contents.metrics memory =
      (.error (.overflow id), next) ∧ _
  generalize updateEach Memory.update memory.contents.metrics memory = outcome at own
  cases own with
  | whole fits doubled => exact .inl ⟨_, rfl, fits, doubled⟩
  | front tooLarge first doubled => exact .inr ⟨_, _, rfl, tooLarge, first, doubled⟩

/-- The series of tables; where there are no tables there are none. -/
def rows (database : Database) : Memory := database.tables.getD {}

theorem reloads_database (schedule : Retry.Schedule) {database : Database}
    (holds : database.Holds memory) :
    Reloads (Database.storage schedule) rows (fun _ before after => after = before) database := by
  obtain ⟨rfl, named, unsigned⟩ := holds
  apply reloads_of_batch named rfl
  intro finite
  have own := Database.updateBatch_own schedule named finite unsigned
  change (∃ next, (Database.storage schedule).updateBatch memory.contents.metrics ⟨some memory⟩ =
    (.ok (), next) ∧ _) ∨
    ∃ id next, (Database.storage schedule).updateBatch memory.contents.metrics ⟨some memory⟩ =
      (.error (.overflow id), next) ∧ _
  generalize (Database.storage schedule).updateBatch memory.contents.metrics ⟨some memory⟩ =
    outcome at own
  cases own with
  | whole taken =>
    cases taken with
    | whole fits doubled => exact .inl ⟨_, rfl, fits, doubled⟩
  | none refused =>
    cases refused with
    | front tooLarge first doubled => exact .inr ⟨_, _, rfl, tooLarge, first, rfl⟩

/-- A file is refused as a whole if anything in it is wrong, and is otherwise a batch of its
records, in whatever store it is loaded. A store that loads what was saved of it, or of one with the
same series, keeps its gauges and has its counters doubled, unless one of them is too large for
that; if a reading is not finite the file is a wrong one. -/
theorem files_load_whole :
    (∀ {σ : Type} (storage : Storage σ) (path : String) (files : Files) (state : σ),
      LoadsWhole storage path files state) ∧
      (∀ writes : List Write, Reloads Memory.storage id (fun id => Memory.Doubled (· < id))
        (runAll Memory.storage.write writes {}).2) ∧
      ∀ (schedule : Retry.Schedule) (writes : List Write),
        Reloads (Database.storage schedule) rows (fun _ before after => after = before)
          (runAll (Database.storage schedule).write writes (Database.migrateUp {})).2 := by
  refine ⟨loadsWhole, ?_, ?_⟩
  · intro writes
    exact reloads_memory (Memory.isNamed_runAll writes)
  · intro schedule writes
    obtain ⟨tables, holds⟩ := Database.holds_runAll schedule writes
    exact reloads_database schedule holds

/-- A reading that is not finite is saved as none, so that nothing of the file is taken, and no
counter doubled. -/
theorem infinite_reading_refused :
    let memory := (runAll Memory.storage.write
      [.update ⟨"c", .counter 1⟩, .update ⟨"g", .gauge (.infinite false)⟩] {}).2
    let saved := save "s.json" (Memory.storage.all memory) {}
    saved.1 = .ok 2 ∧
      load Memory.storage "s.json" saved.2 memory = (.error (.snapshotFormat .unfit), memory) ∧
      memory.lookup ⟨"c", .counter⟩ = some (.counter 1) ∧
      ¬ Memory.Doubled (fun _ => True) memory memory := by
  intro memory saved
  have there : memory.lookup ⟨"c", .counter⟩ = some (.counter 1) := by rfl
  refine ⟨by rfl, by rfl, there, ?_⟩
  intro doubled
  obtain ⟨sum, doubledThere, twice⟩ := doubled.counters "c" 1 trivial there
  cases there.symm.trans doubledThere
  exact absurd twice (by decide)

/-- One record is enough to refuse a file: the second one has no value for its type. -/
example : load Memory.storage "s.json" (Files.write {} "s.json" (Bytes.ofText
      "[[\"a\",\"counter\",null,1],[\"b\",\"gauge\",null,1]]")) {} =
        (.error (.snapshotFormat .unfit), {}) := by
  rfl

example : (load Memory.storage "s.json" (Files.write {} "s.json" (Bytes.ofText
      "[[\"a\",\"counter\",null,1],[\"a\",\"counter\",null,2]]")) {}).2.lookup ⟨"a", .counter⟩ =
    some (.counter 3) := by
  decide +kernel

end Telemetry.Snapshot
