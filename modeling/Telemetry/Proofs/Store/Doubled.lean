import Telemetry.Proofs.Snapshot.Restored

/-!
Stores that are given their own series once more. Main statements: a gauge stays as it is and a
counter is doubled, in the order of the series and up to the first whose double does not fit; the
relational store then takes none of them.
-/
namespace Telemetry

open Decimal (FitsInt64)

/-- The value once it has been entered on top of itself, if it can be. -/
def Value.twice? : Value → Option Value
  | gauge reading => some (gauge reading)
  | counter total => (Memory.sum? total total).map counter

theorem Value.twice?_counter_eq_none {total : Int64} :
    (counter total).twice? = none ↔ ¬ FitsInt64 (2 * total.toInt) := by
  rw [twice?, Option.map_eq_none_iff, Memory.sum?, Decimal.toInt64?_eq_none, Int.two_mul]

theorem Key.counter_lt_iff {id other : String} : (⟨id, .counter⟩ : Key) < ⟨other, .counter⟩ ↔
    id < other := by
  constructor
  · rintro (below | ⟨-, gauge, -⟩)
    · exact below
    · cases gauge
  · exact .inl

namespace Contents

variable {now : Contents} {entries : List (Key × Value)}

theorem update_own {key : Key} {value : Value} (named : key.id ≠ "") (kind : value.kind = key.kind)
    (there : now.get? key = some value) :
    update ⟨key.id, value⟩ now =
      match value.twice? with
      | some twice => (.ok (), now.put key twice)
      | none => (.error (.overflow key.id), now) := by
  obtain ⟨id, sort⟩ := key
  cases kind
  cases value with
  | gauge reading => exact update_gauge named reading now
  | counter total =>
    have own : now.total id = total := by
      change now.get? ⟨id, .counter⟩ = _ at there
      rw [Contents.total, there]
    rw [update_counter named, own, Value.twice?]
    cases Memory.sum? total total <;> rfl

/-- What comes of entries that are entered once more: each of them twice, up to the first that
cannot be. -/
inductive Doubling (entries : List (Key × Value)) (now : Contents) :
    Except StoreFault Unit × Contents → Prop
  | whole {next : Contents} (fits : ∀ entry ∈ entries, entry.2.twice? ≠ none)
      (gets : ∀ key,
        next.get? key = ((Table.find? key entries).bind Value.twice?).or (now.get? key)) :
      Doubling entries now (.ok (), next)
  | front {before after : List (Key × Value)} {key : Key} {value : Value} {left : Contents}
      (split : entries = before ++ (key, value) :: after)
      (fits : ∀ entry ∈ before, entry.2.twice? ≠ none) (tooLarge : value.twice? = none)
      (gets : ∀ other,
        left.get? other = ((Table.find? other before).bind Value.twice?).or (now.get? other)) :
      Doubling entries now (.error (.overflow key.id), left)

theorem updateEach_own (sorted : Table.Sorted entries) (named : ∀ entry ∈ entries, entry.1.id ≠ "")
    (kinds : ∀ entry ∈ entries, entry.2.kind = entry.1.kind)
    (there : ∀ entry ∈ entries, now.get? entry.1 = some entry.2) :
    Doubling entries now
      (updateEach update (entries.map fun entry => ⟨entry.1.id, entry.2⟩) now) := by
  induction entries generalizing now with
  | nil => exact .whole nofun fun key => (Option.none_or).symm
  | cons first rest ih =>
    obtain ⟨key, value⟩ := first
    obtain ⟨below, sortedRest⟩ := List.pairwise_cons.1 sorted
    simp only [List.forall_mem_cons] at named kinds there
    have step := update_own named.1 kinds.1 there.1
    rw [List.map_cons]
    cases twice : value.twice? with
    | none =>
      rw [twice] at step
      rw [updateEach_cons_error step]
      exact .front (List.nil_append _).symm nofun twice fun other => (Option.none_or).symm
    | some doubled =>
      rw [twice] at step
      have still : ∀ entry ∈ rest, (now.put key doubled).get? entry.1 = some entry.2 := by
        intro entry member
        rw [Table.get?_put_of_ne _ (Table.ne_of_lt (below entry member)).symm]
        exact there.2 entry member
      -- The first entry is found by its key alone, as those behind it have other keys.
      have gets : ∀ (front : List (Key × Value)) (other : Key), front <+: rest →
          ((Table.find? other front).bind Value.twice?).or ((now.put key doubled).get? other) =
            ((Table.find? other ((key, value) :: front)).bind Value.twice?).or
              (now.get? other) := by
        intro front other part
        by_cases same : other = key
        · have absent : Table.find? key front = none :=
            Table.find?_eq_none_of_below fun entry member => below entry (part.subset member)
          simp [Table.find?, same, absent, twice]
        · simp [Table.find?, same, Table.get?_put]
      rw [updateEach_cons_ok step]
      generalize updateEach update (rest.map fun entry => ⟨entry.1.id, entry.2⟩)
        (now.put key doubled) = outcome, ih sortedRest named.2 kinds.2 still = later
      cases later with
      | whole fits answers =>
        refine .whole (List.forall_mem_cons.2 ⟨by simp [twice], fits⟩) fun other => ?_
        rw [answers, gets rest other List.prefix_rfl]
      | front split fits tooLarge answers =>
        refine .front (congrArg ((key, value) :: ·) split)
          (List.forall_mem_cons.2 ⟨by simp [twice], fits⟩)
          tooLarge ?_
        intro other
        rw [answers, gets _ other ⟨_, split.symm⟩]

end Contents

namespace Memory

variable {memory after : Memory} {id : String}

theorem unsignZeros_idem (memory : Memory) :
    memory.unsignZeros.unsignZeros = memory.unsignZeros := by
  have gauges : memory.unsignZeros.gauges.mapValues Binary64.dropZeroSign =
      memory.unsignZeros.gauges := by
    apply Table.ext_get?
    intro id
    rw [unsignZeros, Table.get?_mapValues, Table.get?_mapValues, Option.map_map]
    exact congrArg (Option.map · _) (funext Binary64.dropZeroSign_idem)
  rw [unsignZeros, gauges]

def TooLargeTwice (memory : Memory) (id : String) : Prop :=
  ∃ total, memory.lookup ⟨id, .counter⟩ = some (.counter total) ∧ ¬ FitsInt64 (2 * total.toInt)

structure Doubled (which : String → Prop) (before after : Memory) : Prop where
  gauges : ∀ id, after.lookup ⟨id, .gauge⟩ = before.lookup ⟨id, .gauge⟩
  counters : ∀ id total, which id → before.lookup ⟨id, .counter⟩ = some (.counter total) →
    ∃ sum : Int64, after.lookup ⟨id, .counter⟩ = some (.counter sum) ∧ sum.toInt = 2 * total.toInt
  others : ∀ id, ¬ which id ∨ before.lookup ⟨id, .counter⟩ = none →
    after.lookup ⟨id, .counter⟩ = before.lookup ⟨id, .counter⟩

theorem Doubled.of_lookup {which : Key → Prop} [DecidablePred which]
    (fits : ∀ key value, which key → memory.lookup key = some value → value.twice? ≠ none)
    (lookups : ∀ key, after.lookup key =
      ((if which key then memory.lookup key else none).bind Value.twice?).or (memory.lookup key)) :
    Doubled (fun id => which ⟨id, .counter⟩) memory after where
  gauges id := by
    rw [lookups]
    cases there : memory.lookup ⟨id, .gauge⟩ with
    | none => simp
    | some value =>
      obtain ⟨reading, -, rfl⟩ := Option.map_eq_some_iff.1 there
      split <;> rfl
  counters id total inside there := by
    obtain ⟨twice, made⟩ := Option.ne_none_iff_exists'.1 (fits _ _ inside there)
    obtain ⟨sum, exact, rfl⟩ := Option.map_eq_some_iff.1 made
    refine ⟨sum, ?_, ?_⟩
    · rw [lookups, if_pos inside, there, Option.bind_some, made, Option.some_or]
    · rw [Decimal.toInt64?_eq_some.1 exact, Int.two_mul]
  others id outside := by
    rw [lookups]
    rcases outside with outside | absent
    · rw [if_neg outside, Option.bind_none, Option.none_or]
    · rw [absent]
      simp

inductive Reentered (memory : Memory) : Except StoreFault Unit × Memory → Prop
  | whole {after : Memory} (fits : ∀ id, ¬ memory.TooLargeTwice id)
      (doubled : Doubled (fun _ => True) memory after) :
      Reentered memory (.ok (), after)
  | front {id : String} {after : Memory} (tooLarge : memory.TooLargeTwice id)
      (first : ∀ other, other < id → ¬ memory.TooLargeTwice other)
      (doubled : Doubled (· < id) memory after) :
      Reentered memory (.error (.overflow id), after)

theorem updateEach_own (named : memory.IsNamed) :
    memory.Reentered (updateEach update memory.contents.metrics memory) := by
  have names : ∀ entry ∈ memory.contents.entries, entry.1.id ≠ "" := by
    rintro ⟨key, value⟩ listed
    exact named key value (mem_contents_iff.1 listed)
  have kinds : ∀ entry ∈ memory.contents.entries, entry.2.kind = entry.1.kind := by
    rintro ⟨key, value⟩ listed
    exact kind_of_lookup (mem_contents_iff.1 listed)
  have there : ∀ entry ∈ memory.contents.entries, memory.contents.get? entry.1 = some entry.2 := by
    rintro ⟨key, value⟩ listed
    exact memory.contents.mem_entries_iff.1 listed
  have sorted := memory.contents.sorted
  have doubling := Contents.updateEach_own sorted names kinds there
  have same := updateEach_contents memory.contents.metrics memory
  rw [Contents.metrics] at same ⊢
  rw [same] at doubling
  generalize updateEach update _ memory = outcome at doubling
  obtain ⟨result, after⟩ := outcome
  dsimp only at doubling
  generalize listed : after.contents = next at doubling
  cases doubling with
  | whole fits gets =>
    have all : ∀ key value, True → memory.lookup key = some value → value.twice? ≠ none :=
      fun key value _ there => fits (key, value) (mem_contents_iff.2 there)
    refine .whole ?_ (.of_lookup all ?_)
    · rintro id ⟨total, there, tooLarge⟩
      exact all _ _ trivial there (Value.twice?_counter_eq_none.2 tooLarge)
    · intro key
      rw [← get?_contents, listed, gets, if_pos trivial, ← get?_contents]
      rfl
  | @front before rest key value _ split fits tooLarge gets =>
    -- Entries are in the order of their keys: those before this one are the ones with smaller keys.
    have found : ∀ other,
        Table.find? other before = if other < key then memory.lookup other else none := by
      intro other
      rw [Table.find?_front (split ▸ sorted) other, ← split, ← get?_contents]
      rfl
    have smaller : ∀ other value, other < key → memory.lookup other = some value →
        value.twice? ≠ none := by
      intro other value below there
      have inside : Table.find? other before = some value := by rw [found, if_pos below, there]
      exact fits (other, value) (Table.mem_of_find? inside)
    have own : memory.lookup key = some value :=
      mem_contents_iff.1 (split ▸ List.mem_append_right _ List.mem_cons_self)
    obtain ⟨id, kind⟩ := key
    cases value with
    | gauge reading => cases tooLarge
    | counter total =>
      obtain rfl : kind = .counter := (kind_of_lookup own).symm
      have order : (fun other : String => (⟨other, .counter⟩ : Key) < ⟨id, .counter⟩) = (· < id) :=
        funext fun other => propext Key.counter_lt_iff
      refine .front ⟨total, own, Value.twice?_counter_eq_none.1 tooLarge⟩ ?_
        (order ▸ .of_lookup smaller ?_)
      · rintro other below ⟨total, there, tooLarge⟩
        exact smaller _ _ (Key.counter_lt_iff.2 below) there
          (Value.twice?_counter_eq_none.2 tooLarge)
      · intro other
        rw [← get?_contents, listed, gets, found, ← get?_contents]

end Memory

namespace Database

variable {tables : Memory}

theorem map_unsignZero (unsigned : tables.unsignZeros = tables) :
    tables.contents.metrics.map Metric.unsignZero = tables.contents.metrics := by
  refine (List.map_congr_left ?_).trans (List.map_id _)
  intro m member
  have there := Memory.mem_metrics_iff.1 member
  have same := Memory.lookup_unsignZeros tables m.key
  rw [unsigned, there, Option.map_some, Option.some.injEq] at same
  rw [Metric.unsignZero, ← same]
  rfl

/-- What comes of tables that are given their own series once more: all of it or nothing. -/
inductive Reentered (tables : Memory) : Except StoreFault Unit × Database → Prop
  | whole {next : Memory} (taken : tables.Reentered (.ok (), next)) :
      Reentered tables (.ok (), ⟨some next⟩)
  | none {id : String} {left : Memory} (refused : tables.Reentered (.error (.overflow id), left)) :
      Reentered tables (.error (.overflow id), ⟨some tables⟩)

theorem updateBatch_own (schedule : Retry.Schedule) (named : tables.IsNamed)
    (finite : tables.IsFinite) (unsigned : tables.unsignZeros = tables) :
    Reentered tables ((storage schedule).updateBatch tables.contents.metrics ⟨some tables⟩) := by
  have outcome := updateBatch_cases schedule tables.contents.metrics tables
  have own := Memory.updateEach_own named
  generalize (storage schedule).updateBatch tables.contents.metrics ⟨some tables⟩ =
    written at outcome
  cases outcome with
  | applied named each =>
    rw [map_unsignZero unsigned] at each
    exact .whole (each ▸ own)
  | unnamed empty =>
    obtain ⟨m, member, unnamed⟩ := empty
    exact absurd unnamed (Memory.named_metrics named m member)
  | overflow named each =>
    rw [map_unsignZero unsigned] at each
    exact .none (each ▸ own)
  | notNumber _ nan =>
    obtain ⟨m, member, nan⟩ := nan
    rw [Metric.isNumber_of_isFinite (Memory.isFinite_iff.1 finite m member)] at nan
    cases nan

structure Holds (database : Database) (tables : Memory) : Prop where
  there : database = ⟨some tables⟩
  named : tables.IsNamed
  unsigned : tables.unsignZeros = tables

theorem Holds.batch {database : Database} (holds : database.Holds tables)
    (schedule : Retry.Schedule) (ms : List Metric) :
    ∃ next, Holds ((storage schedule).updateBatch ms database).2 next := by
  obtain ⟨rfl, named, unsigned⟩ := holds
  have outcome := updateBatch_cases schedule ms tables
  generalize (storage schedule).updateBatch ms ⟨some tables⟩ = written at outcome
  cases outcome with
  | @applied next _ each =>
    have next_eq : next = (updateEach Memory.update (ms.map Metric.unsignZero) tables).2 := by
      rw [each]
    have commutes := Memory.updateEach_unsignZero ms tables
    rw [unsigned] at commutes
    refine ⟨next, rfl, ?_, ?_⟩
    · rw [next_eq]
      exact named.write (.batch (ms.map Metric.unsignZero))
    · rw [next_eq, commutes]
      exact Memory.unsignZeros_idem _
  | unnamed => exact ⟨tables, rfl, named, unsigned⟩
  | overflow => exact ⟨tables, rfl, named, unsigned⟩
  | notNumber => exact ⟨tables, rfl, named, unsigned⟩

/-- Whatever is written to migrated tables, no series has an empty id, and no zero a sign. -/
theorem holds_runAll (schedule : Retry.Schedule) (writes : List Telemetry.Write) :
    ∃ tables, Holds (runAll (storage schedule).write writes (migrateUp {})).2 tables := by
  refine runAll_keeps (P := fun database => ∃ tables, Holds database tables) ?_
    ⟨{}, rfl, Memory.isNamed_empty, rfl⟩
  rintro write _ database ⟨tables, holds⟩
  cases write with
  | update m => exact holds.batch schedule [m]
  | batch ms => exact holds.batch schedule ms

end Database
end Telemetry
