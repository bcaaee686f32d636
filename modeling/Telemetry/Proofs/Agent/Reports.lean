import Mathlib.Data.List.Induction
import Telemetry.Proofs.Agent.Session
import Telemetry.Proofs.Store.History

/-!
Samples and reports in any order. Main statement: a report lists every gauge that was ever read with
its latest reading, in ascending order and each once, and then the number of samples since the
report before it, if there are any; so that the numbers in all reports and the one that is pending
make the number of samples taken.
-/
namespace Telemetry

open Decimal (FitsInt64)
open History (readings total)

namespace Sampler

inductive Call where
  | sample
  | report
  deriving DecidableEq, Repr

def perform : Call → Sampler → Option (List Metric) × Sampler
  | .sample, sampler => (none, sampler.sample)
  | .report, sampler => sampler.takeReport.map some id

abbrev run (collectors : List Collector) (calls : List Call) :
    List (Option (List Metric)) × Sampler :=
  runAll perform calls { collectors }

def readUntil (collectors : List Collector) (count : Nat) : List Metric :=
  (List.range count).flatMap fun nth => collectors.flatMap (· nth)

def unreported (calls : List Call) : Nat := (calls.reverse.takeWhile (· = .sample)).length

/-- There are never more samples between two reports than can be counted. -/
def Countable (calls : List Call) : Prop := ∀ front, front <+: calls → FitsInt64 (unreported front)

theorem Countable.of_snoc {calls : List Call} {call : Call}
    (countable : Countable (calls ++ [call])) :
    Countable calls :=
  fun front inside => countable front (inside.trans (List.prefix_append calls [call]))

end Sampler

namespace Samples

/-- The gauges that were read, in ascending order and each once, with their latest readings. -/
structure Latest (history : List Metric) (gauges : List (String × Binary64)) : Prop where
  ascending : gauges.Pairwise fun first second => first.1 < second.1
  latest : ∀ id reading, (id, reading) ∈ gauges ↔ (readings id history).getLast? = some reading

def listed (gauges : List (String × Binary64)) : List Metric :=
  gauges.map fun (id, reading) => ⟨id, .gauge reading⟩

def counted (count : Nat) : List Metric :=
  if count = 0 then [] else [⟨pollCount, .counter (Int64.ofNat count)⟩]

/-- What is to be reported after such readings and that many samples. -/
def IsReport (history : List Metric) (count : Nat) (report : List Metric) : Prop :=
  ∃ gauges, Latest history gauges ∧ report = listed gauges ++ counted count

variable {history ms report : List Metric} {gauges : Table String Binary64}

theorem get?_enter (gauges : Table String Binary64) (m : Metric) (id : String) :
    (enter gauges m).get? id = (readings id [m]).getLast?.or (gauges.get? id) := by
  obtain ⟨own, reading | delta⟩ := m
  · rw [enter, Table.get?_put]
    by_cases same : id = own
    · simp [readings, same]
    · simp [readings, same, Ne.symm same]
  · simp [enter, readings]

theorem get?_foldl_enter (ms : List Metric) (gauges : Table String Binary64) (id : String) :
    (ms.foldl enter gauges).get? id = (readings id ms).getLast?.or (gauges.get? id) := by
  induction ms generalizing gauges with
  | nil => rfl
  | cons m rest ih =>
    have parts : readings id (m :: rest) = readings id [m] ++ readings id rest := by
      rw [← List.singleton_append, readings, List.filterMap_append]
      rfl
    rw [List.foldl_cons, ih, get?_enter, parts, List.getLast?_append, Option.or_assoc]

theorem latest_entries (exact : ∀ id, gauges.get? id = (readings id history).getLast?) :
    Latest history gauges.entries where
  ascending := gauges.sorted
  latest id reading := by
    rw [Table.mem_entries_iff, exact]

theorem total_append (id : String) (front back : List Metric) :
    total id (front ++ back) = total id front + total id back := by
  rw [total, History.deltas, List.filterMap_append, List.sum_append]
  rfl

theorem deltas_listed (id : String) (gauges : List (String × Binary64)) :
    History.deltas id (listed gauges) = [] := by
  rw [History.deltas, listed, List.filterMap_map, List.filterMap_eq_nil_iff]
  intro gauge _
  rfl

theorem toInt_ofNat {count : Nat} (fits : FitsInt64 count) : (Int64.ofNat count).toInt = count :=
  Int64.toInt_ofNat_of_lt (Int.ofNat_lt.1 fits.2)

theorem ofNat_pos_iff {count : Nat} (fits : FitsInt64 count) :
    0 < Int64.ofNat count ↔ count ≠ 0 := by
  rw [Int64.lt_iff_toInt_lt, toInt_ofNat fits, Int64.toInt_zero]
  omega

theorem total_counted {count : Nat} (fits : FitsInt64 count) :
    total pollCount (counted count) = count := by
  unfold counted
  by_cases none : count = 0
  · rw [if_pos none, none]
    rfl
  · rw [if_neg none]
    simp [total, History.deltas, toInt_ofNat fits]

theorem IsReport.total {count : Nat} (isReport : IsReport history count report)
    (fits : FitsInt64 count) :
    total pollCount report = count := by
  obtain ⟨gauges, -, rfl⟩ := isReport
  rw [total_append, total_counted fits, History.total, deltas_listed, List.sum_nil, Int.zero_add]

theorem filter_report (samples : Samples) :
    samples.report.filter (fun m => m.kind = .gauge) = listed samples.gauges.entries := by
  have gauges : ∀ m ∈ listed samples.gauges.entries, decide (m.kind = .gauge) = true := by
    intro m member
    obtain ⟨gauge, -, rfl⟩ := List.mem_map.1 member
    rfl
  rw [report, ← listed, List.filter_append, List.filter_eq_self.2 gauges]
  split <;> exact List.append_nil _

theorem report_reported (samples : Samples) :
    samples.reported.report = samples.report.filter fun m => m.kind = .gauge := by
  have nothing : ¬ 0 < samples.reported.pending := by
    unfold reported
    dsimp only
    split
    · decide
    · assumption
  rw [filter_report, report, if_neg nothing, List.append_nil]
  rfl

end Samples

namespace Sampler

open Samples (IsReport Latest listed counted latest_entries)

variable {collectors : List Collector} {calls : List Call} {sampler : Sampler}

theorem unreported_sample (calls : List Call) :
    unreported (calls ++ [.sample]) = unreported calls + 1 := by
  simp [unreported]

theorem unreported_report (calls : List Call) : unreported (calls ++ [.report]) = 0 := by
  simp [unreported]

theorem readUntil_succ (collectors : List Collector) (count : Nat) :
    readUntil collectors (count + 1) =
      readUntil collectors count ++ collectors.flatMap (· count) := by
  simp [readUntil, List.range_succ]

structure Kept (collectors : List Collector) (calls : List Call) (sampler : Sampler) : Prop where
  sources : sampler.collectors = collectors
  taken : sampler.taken = calls.count .sample
  pending : Countable calls → sampler.samples.pending = Int64.ofNat (unreported calls)
  gauges : ∀ id, sampler.samples.gauges.get? id =
    (readings id (readUntil collectors (calls.count .sample))).getLast?

theorem Kept.sample (kept : Kept collectors calls sampler) :
    Kept collectors (calls ++ [.sample]) sampler.sample where
  sources := kept.sources
  taken := by simp [Sampler.sample, kept.taken]
  pending countable := by
    rw [unreported_sample, Int64.ofNat_add, ← kept.pending countable.of_snoc]
    rfl
  gauges id := by
    have count : (calls ++ [Call.sample]).count .sample = calls.count .sample + 1 := by simp
    rw [count, readUntil_succ, readings, List.filterMap_append, List.getLast?_append, ← readings,
      ← readings, ← kept.gauges, ← kept.taken, ← kept.sources]
    exact Samples.get?_foldl_enter _ _ id

theorem Kept.report (kept : Kept collectors calls sampler) :
    Kept collectors (calls ++ [.report]) sampler.takeReport.2 where
  sources := kept.sources
  taken := by simp [takeReport, kept.taken]
  pending countable := by
    have positive := Samples.ofNat_pos_iff (countable calls (List.prefix_append calls [.report]))
    simp only [takeReport, Samples.reported, kept.pending countable.of_snoc, unreported_report,
      positive]
    split
    case isTrue some => rfl
    case isFalse none => rw [not_not.1 none]
  gauges id := by
    have count : (calls ++ [Call.report]).count .sample = calls.count .sample := by simp
    rw [count]
    exact kept.gauges id

theorem kept_run (collectors : List Collector) (calls : List Call) :
    Kept collectors calls (run collectors calls).2 := by
  induction calls using List.reverseRec with
  | nil => exact ⟨rfl, rfl, fun _ => rfl, fun _ => rfl⟩
  | append_singleton front call ih =>
    rw [run, runAll_snoc]
    cases call with
    | sample => exact ih.sample
    | report => exact ih.report

theorem Kept.isReport (kept : Kept collectors calls sampler) (countable : Countable calls) :
    IsReport (readUntil collectors (calls.count .sample)) (unreported calls)
      sampler.takeReport.1 := by
  refine ⟨sampler.samples.gauges.entries, latest_entries kept.gauges, ?_⟩
  have positive := Samples.ofNat_pos_iff (countable calls (List.prefix_refl calls))
  simp only [takeReport, Samples.report, kept.pending countable, positive, counted, ite_not]
  rfl

def reported (collectors : List Collector) (calls : List Call) : List Metric :=
  (run collectors calls).1.flatMap fun answer => answer.getD []

theorem reported_sample (collectors : List Collector) (calls : List Call) :
    reported collectors (calls ++ [.sample]) = reported collectors calls := by
  simp [reported, run, runAll_snoc, perform]

theorem reported_report (collectors : List Collector) (calls : List Call) :
    reported collectors (calls ++ [.report]) =
      reported collectors calls ++ (run collectors calls).2.takeReport.1 := by
  simp [reported, run, runAll_snoc, perform]

/-- What all reports count and what is pending make the number of samples, in 64 bits. -/
theorem polls_reported (collectors : List Collector) (calls : List Call) :
    ((reported collectors calls).map Metric.polls).sum + (run collectors calls).2.samples.pending =
      Int64.ofNat (calls.count .sample) := by
  induction calls using List.reverseRec with
  | nil => rfl
  | append_singleton front call ih =>
    cases call with
    | sample =>
      have pending : (run collectors (front ++ [.sample])).2.samples.pending =
          (run collectors front).2.samples.pending + 1 := by
        rw [run, runAll_snoc]
        rfl
      rw [reported_sample, pending, ← Int64.add_assoc, ih, List.count_append]
      exact (Int64.ofNat_add _ _).symm
    | report =>
      have pending : (run collectors (front ++ [.report])).2.samples.pending =
          (run collectors front).2.samples.reported.pending := by
        rw [run, runAll_snoc]
        rfl
      have polls : ((run collectors front).2.takeReport.1.map Metric.polls).sum =
          (run collectors front).2.samples.due := Samples.polls_report _
      rw [reported_report, pending, List.map_append, List.sum_append, polls, Int64.add_assoc,
        Samples.due_add_reported, ih]
      simp

theorem total_reported (collectors : List Collector) {calls : List Call}
    (countable : Countable calls) :
    total pollCount (reported collectors calls) + unreported calls = calls.count .sample := by
  induction calls using List.reverseRec with
  | nil => rfl
  | append_singleton front call ih =>
    have before := ih countable.of_snoc
    cases call with
    | sample =>
      rw [reported_sample, unreported_sample, List.count_append]
      simp only [List.count_singleton_self, Nat.cast_add, Nat.cast_one]
      omega
    | report =>
      have counts := ((kept_run collectors front).isReport countable.of_snoc).total
        (countable front (List.prefix_append front [.report]))
      rw [reported_report, unreported_report, Samples.total_append, counts]
      simpa using before

structure Accounts (collectors : List Collector) (calls : List Call) : Prop where
  /-- Each report lists the gauges that were read by then, and counts the samples since the report
  before it as long as there is a number for them. -/
  report : ∀ n, calls[n]? = some .report →
    ∃ report, (run collectors calls).1[n]? = some (some report) ∧
    (∃ gauges, Latest (readUntil collectors ((calls.take n).count .sample)) gauges ∧
      report.filter (fun m => m.kind = .gauge) = listed gauges) ∧
    (Countable (calls.take n) →
      IsReport (readUntil collectors ((calls.take n).count .sample)) (unreported (calls.take n))
        report)
  pending : Countable calls →
    (run collectors calls).2.samples.pending = Int64.ofNat (unreported calls)
  total : Countable calls →
    total pollCount (reported collectors calls) + unreported calls = calls.count .sample
  /-- Whether there is or not, what is reported and what is pending make the number of samples in 64
  bits. -/
  polls :
    ((reported collectors calls).map Metric.polls).sum + (run collectors calls).2.samples.pending =
    Int64.ofNat (calls.count .sample)
  /-- A report changes nothing but the pending count. -/
  spares : ∀ n, calls[n]? = some .report →
    let before := (run collectors (calls.take n)).2
    (run collectors (calls.take (n + 1))).2 = { before with samples := { before.samples with
      pending := if 0 < before.samples.pending then 0 else before.samples.pending } }
  /-- A report right after another one has the gauges alone. -/
  again : ∀ n, calls[n]? = some .report → calls[n + 1]? = some .report →
    ∀ report, (run collectors calls).1[n]? = some (some report) →
      (run collectors calls).1[n + 1]? = some (some (report.filter fun m => m.kind = .gauge))

theorem getElem?_run (collectors : List Collector) {n : Nat} {call : Call}
    (here : calls[n]? = some call) :
    (run collectors calls).1[n]? = some (perform call (run collectors (calls.take n)).2).1 ∧
      (run collectors (calls.take (n + 1))).2 =
        (perform call (run collectors (calls.take n)).2).2 :=
  getElem?_runAll here _

/-- Samples and reports in any order, from any collectors. -/
theorem samples_are_reported (collectors : List Collector) (calls : List Call) :
    Accounts collectors calls where
  report n here := by
    obtain ⟨answered, -⟩ := getElem?_run collectors here
    have kept := kept_run collectors (calls.take n)
    exact ⟨_, answered, ⟨_, latest_entries kept.gauges, Samples.filter_report _⟩, kept.isReport⟩
  pending := (kept_run collectors calls).pending
  total := total_reported collectors
  polls := polls_reported collectors calls
  spares n here := (getElem?_run collectors here).2
  again n here next report answered := by
    obtain ⟨first, left⟩ := getElem?_run collectors here
    obtain ⟨second, -⟩ := getElem?_run collectors next
    rw [first] at answered
    cases answered
    rw [second, left]
    exact congrArg (fun report => some (some report)) (Samples.report_reported _)

end Sampler
end Telemetry
