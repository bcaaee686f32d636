import Mathlib.Algebra.Order.BigOperators.Group.List
import Mathlib.Data.List.Perm.Basic
import Mathlib.Logic.Relation
import Telemetry.Proofs.Store.Overflow
import Telemetry.Proofs.Store.Run

/-!
Clients that share a store in memory and bring it one metric at a time, in any order among them.
Main statement: in the end a counter has the exact sum of the deltas that were taken and a gauge the
last reading that was brought; and where no order can take a total out of its range, no order
refuses a metric with an id, and all orders end with the same counters.
-/
namespace Telemetry

open Decimal (FitsInt64)
open History (deltas total readings)

/-- A client's turn at the store: the metric that it brought, and the answer. -/
structure Turn where
  client : Nat
  metric : Metric
  result : Except StoreFault Unit

/-- A store and its clients. A client has its calls ahead of it, each with the metrics it has yet to
bring; the first of them may be under way. -/
structure Shared where
  memory : Memory
  clients : List (List (List Metric))
  /-- The turns that were taken, in their order. -/
  turns : List Turn := []

namespace Shared

def start (memory : Memory) (programs : List (List Write)) : Shared :=
  { memory, clients := programs.map fun program => program.map Write.metrics }

/-- What can happen next: a client brings the next metric of its call, which ends with one that is
refused; or a call that has no metric left returns. -/
inductive Step (now : Shared) : Shared → Prop
  | take {client : Nat} {m : Metric} {ms : List Metric} {calls : List (List Metric)}
      {memory : Memory} (next : now.clients[client]? = some ((m :: ms) :: calls))
      (taken : Memory.update m now.memory = (.ok (), memory)) :
      Step now ⟨memory, now.clients.set client (ms :: calls), now.turns ++ [⟨client, m, .ok ()⟩]⟩
  | refuse {client : Nat} {m : Metric} {ms : List Metric} {calls : List (List Metric)}
      {memory : Memory} {fault : StoreFault}
      (next : now.clients[client]? = some ((m :: ms) :: calls))
      (refused : Memory.update m now.memory = (.error fault, memory)) :
      Step now ⟨memory, now.clients.set client calls, now.turns ++ [⟨client, m, .error fault⟩]⟩
  | leave {client : Nat} {calls : List (List Metric)}
      (next : now.clients[client]? = some ([] :: calls)) :
      Step now { now with clients := now.clients.set client calls }

abbrev Steps : Shared → Shared → Prop := Relation.ReflTransGen Step

def Finished (now : Shared) : Prop := ∀ calls ∈ now.clients, calls = []

end Shared

namespace Turn

def taken (turns : List Turn) : List Metric :=
  turns.filterMap fun turn =>
    match turn.result with
    | .ok () => some turn.metric
    | .error _ => none

def ofClient (client : Nat) (turns : List Turn) : List (Metric × Except StoreFault Unit) :=
  turns.filterMap fun turn => if turn.client = client then some (turn.metric, turn.result) else none

variable {turns : List Turn} {client : Nat} {m : Metric}

@[simp] theorem taken_ok : taken (turns ++ [⟨client, m, .ok ()⟩]) = taken turns ++ [m] := by
  simp [taken]

@[simp] theorem taken_error {fault : StoreFault} :
    taken (turns ++ [⟨client, m, .error fault⟩]) = taken turns := by
  simp [taken]

theorem ofClient_self (turns : List Turn) (client : Nat) (m : Metric)
    (result : Except StoreFault Unit) :
    ofClient client (turns ++ [⟨client, m, result⟩]) = ofClient client turns ++ [(m, result)] := by
  simp [ofClient]

theorem ofClient_of_ne {other : Nat} (differ : client ≠ other) (turns : List Turn) (m : Metric)
    (result : Except StoreFault Unit) :
    ofClient other (turns ++ [⟨client, m, result⟩]) = ofClient other turns := by
  simp [ofClient, differ]

end Turn

/-! ### What one client does -/

/-- The turns of a call: all its metrics are taken, or those before one that is refused. -/
inductive Ran : List Metric → List (Metric × Except StoreFault Unit) → Prop
  | whole (ms : List Metric) : Ran ms (ms.map fun m => (m, .ok ()))
  | stopped (front : List Metric) (m : Metric) (rest : List Metric) (fault : StoreFault) :
      Ran (front ++ m :: rest) ((front.map fun m => (m, .ok ())) ++ [(m, .error fault)])

/-- How far a client has come with its calls: some have been made, and of the next one a front is
taken. -/
inductive Progress (calls : List (List Metric)) (made : List (Metric × Except StoreFault Unit)) :
    List (List Metric) → Prop
  | ended {runs : List (List (Metric × Except StoreFault Unit))} (ran : List.Forall₂ Ran calls runs)
      (all : made = runs.flatten) : Progress calls made []
  | amid {before later : List (List Metric)} {runs : List (List (Metric × Except StoreFault Unit))}
      {ms : List Metric} (front : List Metric) (ran : List.Forall₂ Ran before runs)
      (split : calls = before ++ (front ++ ms) :: later)
      (all : made = runs.flatten ++ front.map fun m => (m, .ok ())) :
      Progress calls made (ms :: later)

namespace Progress

variable {calls before later : List (List Metric)} {made : List (Metric × Except StoreFault Unit)}
  {runs : List (List (Metric × Except StoreFault Unit))} {m : Metric} {ms : List Metric}

theorem between (ran : List.Forall₂ Ran before runs) (split : calls = before ++ later)
    (all : made = runs.flatten) : Progress calls made later := by
  cases later with
  | nil =>
    rw [List.append_nil] at split
    exact .ended (split ▸ ran) all
  | cons ms rest =>
    have nothing : made = runs.flatten ++ ([] : List Metric).map fun m => (m, .ok ()) := by
      rw [all, List.map_nil, List.append_nil]
    exact .amid [] ran split nothing

theorem start (calls : List (List Metric)) : Progress calls [] calls :=
  between .nil (List.nil_append calls).symm rfl

theorem take (progress : Progress calls made ((m :: ms) :: later)) :
    Progress calls (made ++ [(m, .ok ())]) (ms :: later) := by
  cases progress with
  | @amid before later runs _ front ran split all =>
    refine .amid (front ++ [m]) ran ?_ ?_
    · rw [split, List.append_assoc]
      rfl
    · rw [all, List.map_append, List.append_assoc]
      rfl

theorem refuse (progress : Progress calls made ((m :: ms) :: later)) (fault : StoreFault) :
    Progress calls (made ++ [(m, .error fault)]) later := by
  cases progress with
  | @amid before later runs _ front ran split all =>
    refine between (List.rel_append ran (.cons (Ran.stopped front m ms fault) .nil)) ?_ ?_
    · rw [split, List.append_assoc]
      rfl
    · rw [all, List.flatten_append, List.flatten_singleton, List.append_assoc]

theorem leave (progress : Progress calls made ([] :: later)) : Progress calls made later := by
  cases progress with
  | @amid before later runs _ front ran split all =>
    refine between (List.rel_append ran (.cons (Ran.whole front) .nil)) ?_ ?_
    · rw [split, List.append_nil, List.append_assoc]
      rfl
    · rw [all, List.flatten_append, List.flatten_singleton]

end Progress

/-! ### What the store holds -/

namespace Memory

theorem deltas_metrics (memory : Memory) (id : String) :
    deltas id memory.contents.metrics = ((memory.counters.get? id).map Int64.toInt).toList := by
  rw [deltas, Contents.metrics, List.filterMap_map, Table.filterMap_entries ⟨id, .counter⟩]
  · rw [get?_contents]
    cases there : memory.counters.get? id <;> simp [lookup, there]
  · rintro ⟨⟨own, kind⟩, value⟩ listed differ
    have sort := kind_of_lookup (mem_contents_iff.1 listed)
    cases value with
    | gauge reading => rfl
    | counter sum =>
      cases sort
      have apart : own ≠ id := fun same => differ (by rw [same])
      simp [apart]

theorem readings_metrics (memory : Memory) (id : String) :
    readings id memory.contents.metrics = (memory.gauges.get? id).toList := by
  rw [readings, Contents.metrics, List.filterMap_map, Table.filterMap_entries ⟨id, .gauge⟩]
  · rw [get?_contents]
    cases there : memory.gauges.get? id <;> simp [lookup, there]
  · rintro ⟨⟨own, kind⟩, value⟩ listed differ
    have sort := kind_of_lookup (mem_contents_iff.1 listed)
    cases value with
    | counter sum => rfl
    | gauge reading =>
      cases sort
      have apart : own ≠ id := fun same => differ (by rw [same])
      simp [apart]

theorem records_metrics (memory : Memory) : memory.Records memory.contents.metrics := by
  constructor
  · intro id
    rw [total, deltas_metrics]
    cases memory.counters.get? id <;> simp
  · intro id
    rw [readings_metrics]
    cases memory.gauges.get? id <;> rfl

namespace Records

variable {memory next other : Memory} {history history' : List Metric} {m : Metric}

theorem take (records : memory.Records history) (taken : update m memory = (.ok (), next)) :
    next.Records (history ++ [m]) := by
  have related := records.update_related m
  unfold History.update at related
  rw [taken] at related
  split at related
  · cases related.1
  · exact related.2

theorem refuse {fault : StoreFault} (records : memory.Records history)
    (refused : update m memory = (.error fault, next)) : next.Records history := by
  have unchanged := snd_update_of_error (congrArg Prod.fst refused)
  rw [refused] at unchanged
  cases unchanged
  exact records

/-- The counters depend on the deltas alone, in whatever order they were taken. -/
theorem counters_congr (records : memory.Records history) (others : other.Records history')
    (same : ∀ id, (deltas id history).Perm (deltas id history')) :
    memory.counters = other.counters := by
  apply Table.ext_get?
  intro id
  apply Option.map_injective fun _ _ => Int64.toInt.inj
  have none : deltas id history = [] ↔ deltas id history' = [] := by
    rw [← List.length_eq_zero_iff, (same id).length_eq, List.length_eq_zero_iff]
  rw [records.counters, others.counters]
  simp only [none, total, (same id).sum_eq]

end Records
end Memory

namespace Shared

variable {memory : Memory} {programs : List (List Write)} {now next : Shared}

structure Kept (memory : Memory) (programs : List (List Write)) (now : Shared) : Prop where
  records : now.memory.Records (memory.contents.metrics ++ Turn.taken now.turns)
  replay : runAll Memory.update (now.turns.map (·.metric)) memory =
    (now.turns.map (·.result), now.memory)
  progress : ∀ client program, programs[client]? = some program →
    ∃ ahead, now.clients[client]? = some ahead ∧
    Progress (program.map Write.metrics) (Turn.ofClient client now.turns) ahead
  gauges : ∀ turn ∈ now.turns, turn.metric.id ≠ "" → turn.metric.kind = .gauge →
    turn.result = .ok ()

theorem kept_start (memory : Memory) (programs : List (List Write)) :
    Kept memory programs (start memory programs) where
  records := by
    rw [start, Turn.taken, List.filterMap_nil, List.append_nil]
    exact memory.records_metrics
  replay := rfl
  progress client program here := by
    refine ⟨program.map Write.metrics, ?_, .start _⟩
    rw [start, List.getElem?_map, here, Option.map_some]
  gauges := nofun

theorem Kept.progress_set (kept : Kept memory programs now) {client : Nat}
    {old new : List (List Metric)} {turns : List Turn} (here : now.clients[client]? = some old)
    (goes : ∀ calls, Progress calls (Turn.ofClient client now.turns) old →
      Progress calls (Turn.ofClient client turns) new)
    (others : ∀ other, client ≠ other → Turn.ofClient other turns = Turn.ofClient other now.turns) :
    ∀ other program, programs[other]? = some program →
      ∃ ahead, (now.clients.set client new)[other]? = some ahead ∧
      Progress (program.map Write.metrics) (Turn.ofClient other turns) ahead := by
  intro other program planned
  obtain ⟨ahead, there, progress⟩ := kept.progress other program planned
  by_cases same : client = other
  · subst same
    rw [here] at there
    cases there
    exact ⟨new, List.getElem?_set_self (List.getElem?_eq_some_iff.1 here).1, goes _ progress⟩
  · refine ⟨ahead, (List.getElem?_set_ne same).trans there, ?_⟩
    rw [others other same]
    exact progress

theorem Kept.turn (kept : Kept memory programs now) {client : Nat} {m : Metric}
    {result : Except StoreFault Unit} {after : Memory} {old new : List (List Metric)}
    (here : now.clients[client]? = some old)
    (answered : Memory.update m now.memory = (result, after))
    (goes : ∀ calls made, Progress calls made old → Progress calls (made ++ [(m, result)]) new)
    (records :
      after.Records (memory.contents.metrics ++ Turn.taken (now.turns ++ [⟨client, m, result⟩]))) :
    Kept memory programs
      ⟨after, now.clients.set client new, now.turns ++ [⟨client, m, result⟩]⟩ where
  records := records
  replay := by
    simp only [List.map_append, List.map_singleton, runAll_append, kept.replay, runAll, answered]
  progress := by
    refine kept.progress_set here ?_ fun other apart => Turn.ofClient_of_ne apart ..
    intro calls progress
    rw [Turn.ofClient_self]
    exact goes _ _ progress
  gauges := by
    simp only [List.forall_mem_append, List.forall_mem_singleton]
    refine ⟨kept.gauges, ?_⟩
    intro named gauge
    obtain ⟨id, value⟩ := m
    cases value with
    | gauge reading =>
      rw [Memory.update_gauge named rfl] at answered
      exact (congrArg Prod.fst answered).symm
    | counter delta => cases gauge

theorem Kept.step (kept : Kept memory programs now) (step : Step now next) :
    Kept memory programs next := by
  cases step with
  | take here taken =>
    refine kept.turn here taken (fun _ _ progress => progress.take) ?_
    rw [Turn.taken_ok, ← List.append_assoc]
    exact kept.records.take taken
  | refuse here refused =>
    refine kept.turn here refused (fun _ _ progress => progress.refuse _) ?_
    rw [Turn.taken_error]
    exact kept.records.refuse refused
  | @leave client calls here =>
    exact ⟨kept.records, kept.replay,
      kept.progress_set here (fun _ progress => progress.leave) fun _ _ => rfl, kept.gauges⟩

theorem Kept.steps (kept : Kept memory programs now) (steps : Steps now next) :
    Kept memory programs next := by
  induction steps with
  | refl => exact kept
  | tail _ step ih => exact ih.step step

theorem steps_updateEach {client : Nat} {ms : List Metric} {calls : List (List Metric)}
    (here : now.clients[client]? = some (ms :: calls)) :
    ∃ turns, Steps now
      ⟨(updateEach Memory.update ms now.memory).2, now.clients.set client calls,
        now.turns ++ turns⟩ := by
  induction ms generalizing now with
  | nil =>
    refine ⟨[], .single ?_⟩
    rw [List.append_nil]
    exact .leave here
  | cons m rest ih =>
    rcases first : Memory.update m now.memory with ⟨fault | ⟨⟩, after⟩
    · rw [updateEach_cons_error first]
      exact ⟨_, .single (.refuse here first)⟩
    · rw [updateEach_cons_ok first]
      have there :=
        List.getElem?_set_self (l := now.clients) (a := rest :: calls)
          (List.getElem?_eq_some_iff.1 here).1
      obtain ⟨turns, steps⟩ := @ih ⟨after, _, now.turns ++ [⟨client, m, .ok ()⟩]⟩ there
      rw [List.set_set, List.append_assoc] at steps
      exact ⟨_, .head (.take here first) steps⟩

theorem steps_write {client : Nat} {write : Write} {calls : List (List Metric)}
    (here : now.clients[client]? = some (write.metrics :: calls)) :
    ∃ turns, Steps now
      ⟨(Memory.storage.write write now.memory).2, now.clients.set client calls,
        now.turns ++ turns⟩ := by
  rw [Memory.storage_write]
  exact steps_updateEach here

/-! ### Totals that stay in their range -/

def ahead (clients : List (List (List Metric))) : List Metric := clients.flatMap List.flatten

/-- The metrics of calls that have ids, in each call up to the first that has none. -/
def named (calls : List (List Metric)) : List Metric :=
  calls.flatMap fun call => call.takeWhile fun m => m.id ≠ ""

/-- No order can take a total out of its range: neither the additions alone do, nor the
subtractions. -/
def WithinRange (memory : Memory) (ms : List Metric) : Prop :=
  ∀ id, FitsInt64 (((memory.counters.get? id).getD 0).toInt + ((deltas id ms).filter (0 ≤ ·)).sum) ∧
    FitsInt64 (((memory.counters.get? id).getD 0).toInt + ((deltas id ms).filter (· < 0)).sum)

/-- The sum of some of the numbers lies between the sum of the negative ones and that of the others.
-/
theorem sum_between {part all : List Int} (within : part.Sublist all) :
    (all.filter (· < 0)).sum ≤ part.sum ∧ part.sum ≤ (all.filter (0 ≤ ·)).sum := by
  have split : ∀ delta : Int, delta < 0 ∧ ¬ 0 ≤ delta ∨ ¬ delta < 0 ∧ 0 ≤ delta := by omega
  induction within with
  | slnil => simp
  | cons delta within ih =>
    rcases split delta with ⟨low, high⟩ | ⟨low, high⟩ <;> simp [low, high] <;> omega
  | cons_cons delta within ih =>
    rcases split delta with ⟨low, high⟩ | ⟨low, high⟩ <;> simp [low, high] <;> omega

theorem flatMap_set {α β : Type} (f : α → List β) {l : List α} {n : Nat} {old : α}
    (here : l[n]? = some old) :
    ∃ rest, (l.flatMap f).Perm (f old ++ rest) ∧
      ∀ new, ((l.set n new).flatMap f).Perm (f new ++ rest) := by
  obtain ⟨bound, rfl⟩ := List.getElem?_eq_some_iff.1 here
  exact ⟨(l.eraseIdx n).flatMap f, (List.getElem_cons_eraseIdx_perm bound).symm.flatMap_right f,
    fun new => (List.set_perm_cons_eraseIdx bound new).flatMap_right f⟩

theorem taken_sublist (turns : List Turn) : (Turn.taken turns).Sublist (turns.map (·.metric)) := by
  induction turns with
  | nil => exact .slnil
  | cons turn rest ih =>
    obtain ⟨client, m, fault | ⟨⟩⟩ := turn
    · exact ih.cons m
    · exact ih.cons_cons m

/-- As long as no metric with an id has been refused, what the clients have brought and will bring.
-/
structure Unrefused (memory : Memory) (programs : List (List Write)) (now : Shared) : Prop where
  within :
    (now.turns.map (·.metric) ++ ahead now.clients).Subperm (ahead (start memory programs).clients)
  taken : ∀ turn ∈ now.turns, turn.metric.id ≠ "" → turn.result = .ok ()
  named : (Turn.taken now.turns ++ now.clients.flatMap named).Perm
    ((start memory programs).clients.flatMap named)

theorem unrefused_start (memory : Memory) (programs : List (List Write)) :
    Unrefused memory programs (start memory programs) where
  within := List.Subperm.refl _
  taken := nofun
  named := .refl _

variable {client : Nat} {m : Metric} {ms : List Metric} {calls : List (List Metric)}

theorem Unrefused.update_ok (unrefused : Unrefused memory programs now)
    (kept : Kept memory programs now)
    (range : WithinRange memory (ahead (start memory programs).clients))
    (here : now.clients[client]? = some ((m :: ms) :: calls)) (named : m.id ≠ "") :
    (Memory.update m now.memory).1 = .ok () := by
  refine (kept.records.update_ok_iff m).2 ⟨named, ?_⟩
  intro delta value
  have next : [m].Sublist (ahead now.clients) := by
    rw [List.singleton_sublist]
    exact List.mem_flatMap.2 ⟨_, List.mem_of_getElem? here, by simp⟩
  obtain ⟨part, perm, sublist⟩ :=
    ((taken_sublist now.turns).append next).subperm.trans unrefused.within
  have inside : (deltas m.id part).Sublist (deltas m.id (ahead (start memory programs).clients)) :=
    sublist.filterMap _
  have between := sum_between inside
  have same : (deltas m.id part).sum = total m.id (Turn.taken now.turns) + delta.toInt := by
    have whole : total m.id (Turn.taken now.turns ++ [m]) = (deltas m.id part).sum :=
      (perm.filterMap _).sum_eq.symm
    obtain ⟨id, _⟩ := m
    cases value
    rw [← whole, History.total_append, History.total_counter_self]
  have base := memory.records_metrics.toInt_total m.id
  obtain ⟨high, low⟩ := range m.id
  rw [same] at between
  rw [base] at high low
  rw [History.total_append]
  unfold FitsInt64 at high low ⊢
  omega

theorem named_cons_of_named (named : m.id ≠ "") :
    Shared.named ((m :: ms) :: calls) = m :: Shared.named (ms :: calls) := by
  simp [Shared.named, named]

theorem named_cons_of_unnamed (unnamed : m.id = "") :
    Shared.named ((m :: ms) :: calls) = Shared.named calls := by
  simp [Shared.named, unnamed]

theorem Unrefused.step (unrefused : Unrefused memory programs now) (kept : Kept memory programs now)
    (range : WithinRange memory (ahead (start memory programs).clients)) (step : Step now next) :
    Unrefused memory programs next := by
  cases step with
  | @take client m ms calls after here taken =>
    have hasId : m.id ≠ "" := by
      intro unnamed
      rw [Memory.update_of_unnamed unnamed] at taken
      cases taken
    obtain ⟨rest, before, later⟩ := flatMap_set List.flatten here
    obtain ⟨rest', before', later'⟩ := flatMap_set Shared.named here
    rw [named_cons_of_named hasId] at before'
    refine ⟨?_, ?_, ?_⟩
    · rw [List.map_append, List.append_assoc]
      have moved := ((later (ms :: calls)).cons m).trans before.symm
      exact (moved.append_left _).subperm.trans unrefused.within
    · exact List.forall_mem_append.2 ⟨unrefused.taken, List.forall_mem_singleton.2 fun _ => rfl⟩
    · rw [Turn.taken_ok, List.append_assoc]
      have moved := ((later' (ms :: calls)).cons m).trans before'.symm
      exact (moved.append_left _).trans unrefused.named
  | @refuse client m ms calls after fault here refused =>
    -- Within the range only a metric with no name is refused, and it counts for nothing.
    have unnamed : m.id = "" := by
      by_contra hasId
      have ok := unrefused.update_ok kept range here hasId
      rw [refused] at ok
      cases ok
    obtain ⟨rest, before, later⟩ := flatMap_set List.flatten here
    obtain ⟨rest', before', later'⟩ := flatMap_set Shared.named here
    rw [named_cons_of_unnamed unnamed] at before'
    refine ⟨?_, ?_, ?_⟩
    · rw [List.map_append, List.append_assoc]
      have fewer : (m :: (calls.flatten ++ rest)).Sublist (((m :: ms) :: calls).flatten ++ rest) :=
        ((List.sublist_append_right ms _).append_right rest).cons_cons m
      have moved := ((later calls).cons m).subperm.trans (fewer.subperm.trans before.symm.subperm)
      exact ((List.subperm_append_left _).2 moved).trans unrefused.within
    · exact List.forall_mem_append.2 ⟨unrefused.taken, List.forall_mem_singleton.2 fun hasId =>
        absurd unnamed hasId⟩
    · rw [Turn.taken_error]
      exact (((later' calls).trans before'.symm).append_left _).trans unrefused.named
  | @leave client calls here =>
    obtain ⟨rest, before, later⟩ := flatMap_set List.flatten here
    obtain ⟨rest', before', later'⟩ := flatMap_set Shared.named here
    refine ⟨?_, unrefused.taken, ?_⟩
    · exact (((later calls).trans before.symm).append_left _).subperm.trans unrefused.within
    · exact (((later' calls).trans before'.symm).append_left _).trans unrefused.named

theorem Unrefused.steps (range : WithinRange memory (ahead (start memory programs).clients))
    (steps : Steps (start memory programs) now) : Unrefused memory programs now := by
  induction steps with
  | refl => exact unrefused_start memory programs
  | tail earlier step ih => exact ih.step ((kept_start memory programs).steps earlier) range step

/-- Whatever the order, what has been taken in the end is the same up to its order. -/
theorem Unrefused.taken_of_finished (unrefused : Unrefused memory programs now)
    (finished : now.Finished) :
    (Turn.taken now.turns).Perm ((start memory programs).clients.flatMap Shared.named) := by
  have nothing : now.clients.flatMap Shared.named = [] := by
    rw [List.flatMap_eq_nil_iff]
    intro calls member
    simp only [finished calls member, Shared.named, List.flatMap_nil]
  have perm := unrefused.named
  rwa [nothing, List.append_nil] at perm

/-! ### What has become of everything -/

structure Ends (memory : Memory) (programs : List (List Write)) (last : Shared) : Prop where
  counters : ∀ id, ((last.memory.counters.get? id).getD 0).toInt =
    ((memory.counters.get? id).getD 0).toInt + total id (Turn.taken last.turns)
  gauges : ∀ id, last.memory.gauges.get? id =
    (readings id (Turn.taken last.turns)).getLast?.or (memory.gauges.get? id)
  /-- No reading is refused to a gauge that has an id. -/
  readings : ∀ id, id ≠ "" →
    readings id (Turn.taken last.turns) = readings id (last.turns.map (·.metric))
  series : ∀ key, (∃ value, last.memory.lookup key = some value) ↔
    (∃ value, memory.lookup key = some value) ∨ ∃ m ∈ Turn.taken last.turns, m.key = key
  /-- The turns have the answers and the effect that they have one after the other. -/
  order : runAll Memory.update (last.turns.map (·.metric)) memory =
    (last.turns.map (·.result), last.memory)
  /-- A client has made its calls in order, and in each call has brought its metrics in order. -/
  calls : ∀ client program, programs[client]? = some program → ∃ runs,
    List.Forall₂ Ran (program.map Write.metrics) runs ∧
    Turn.ofClient client last.turns = runs.flatten

theorem readings_append (id : String) (front back : List Metric) :
    readings id (front ++ back) = readings id front ++ readings id back := List.filterMap_append

theorem readings_taken {turns : List Turn} {id : String} (hasId : id ≠ "")
    (gauges : ∀ turn ∈ turns, turn.metric.id ≠ "" → turn.metric.kind = .gauge →
      turn.result = .ok ()) :
    readings id (Turn.taken turns) = readings id (turns.map (·.metric)) := by
  rw [readings, readings, Turn.taken, List.filterMap_filterMap, List.filterMap_map]
  apply List.filterMap_congr
  rintro ⟨client, ⟨own, value⟩, fault | ⟨⟩⟩ member
  · cases value with
    | counter delta => rfl
    | gauge reading =>
      have apart : own ≠ id := by
        rintro rfl
        cases gauges _ member hasId rfl
      simp [apart]
  · rfl

theorem Kept.ends (kept : Kept memory programs now) (finished : now.Finished) :
    Ends memory programs now where
  counters id := by
    rw [kept.records.toInt_total, memory.records_metrics.toInt_total, History.total_append]
  gauges id := by
    rw [kept.records.gauges, readings_append, List.getLast?_append, memory.readings_metrics]
    cases memory.gauges.get? id <;> rfl
  readings id hasId := readings_taken hasId kept.gauges
  series key := by
    rw [kept.records.lookup_iff, memory.records_metrics.lookup_iff]
    simp only [List.mem_append, or_and_right, exists_or]
  order := kept.replay
  calls client program planned := by
    obtain ⟨ahead, here, progress⟩ := kept.progress client program planned
    rw [finished ahead (List.mem_of_getElem? here)] at progress
    cases progress with
    | ended ran all => exact ⟨_, ran, all⟩

/-- Clients that share a store, in every order of their turns. -/
theorem turns_add_up (memory : Memory) (programs : List (List Write)) :
    (∀ last, Steps (start memory programs) last → last.Finished → Ends memory programs last) ∧
    (WithinRange memory (programs.flatten.flatMap Write.metrics) →
      (∀ now, Steps (start memory programs) now →
        ∀ turn ∈ now.turns, turn.metric.id ≠ "" → turn.result = .ok ()) ∧
      ∀ one other, Steps (start memory programs) one → one.Finished →
        Steps (start memory programs) other → other.Finished →
        one.memory.counters = other.memory.counters) := by
  have kept : ∀ {now}, Steps (start memory programs) now → Kept memory programs now :=
    fun steps => (kept_start memory programs).steps steps
  refine ⟨fun last steps finished => (kept steps).ends finished, ?_⟩
  intro range
  have all : ahead (start memory programs).clients = programs.flatten.flatMap Write.metrics := by
    simp only [ahead, start, List.flatMap_def, List.map_map, List.map_flatten, List.flatten_flatten]
  rw [← all] at range
  refine ⟨fun now steps => (Unrefused.steps range steps).taken, ?_⟩
  intro one other oneSteps oneFinished otherSteps otherFinished
  have perm := ((Unrefused.steps range oneSteps).taken_of_finished oneFinished).trans
    ((Unrefused.steps range otherSteps).taken_of_finished otherFinished).symm
  refine (kept oneSteps).records.counters_congr (kept otherSteps).records ?_
  intro id
  exact (perm.append_left _).filterMap _

/-- A counter from where the additions below lead up to the end of the range. -/
def nearLimit : Memory := { counters := Table.empty.put "Hits" 9223372036854775797 }

def twoClients : List (List Write) :=
  [[.batch [⟨"Hits", .counter 10⟩, ⟨"Load", .gauge .zero⟩]], [.update ⟨"Hits", .counter (-4)⟩]]

theorem turns_add_up_near_limit :
    WithinRange nearLimit (twoClients.flatten.flatMap Write.metrics) ∧
    ∃ last, Steps (start nearLimit twoClients) last ∧ last.Finished ∧
      Ends nearLimit twoClients last ∧
      last.memory.counters.get? "Hits" = some 9223372036854775803 ∧
      ∀ other, Steps (start nearLimit twoClients) other → other.Finished →
        other.memory.counters = last.memory.counters := by
  have range : WithinRange nearLimit (twoClients.flatten.flatMap Write.metrics) := by
    intro id
    by_cases hits : id = "Hits"
    · subst hits
      decide
    · have others : "Hits" ≠ id := Ne.symm hits
      simp [twoClients, Write.metrics, deltas, nearLimit, Table.get?_put, hits, others, FitsInt64]
  obtain ⟨ends, inRange⟩ := turns_add_up nearLimit twoClients
  obtain ⟨turns, first⟩ := @steps_write (start nearLimit twoClients) 0 (.batch _) [] rfl
  obtain ⟨turns', second⟩ :=
    @steps_write ⟨_, [[], [[⟨"Hits", .counter (-4)⟩]]], turns⟩ 1 (.update ⟨"Hits", .counter (-4)⟩)
      [] rfl
  have finished : ∀ memory turns, Finished ⟨memory, [[], []], turns⟩ := by simp [Finished]
  have steps : Steps (start nearLimit twoClients) ⟨_, [[], []], turns ++ turns'⟩ :=
    first.trans second
  have hits : (Memory.storage.write (.update ⟨"Hits", .counter (-4)⟩) (Memory.storage.write
      (.batch [⟨"Hits", .counter 10⟩, ⟨"Load", .gauge .zero⟩]) nearLimit).2).2.counters.get?
        "Hits" =
      some 9223372036854775803 := by decide +kernel
  refine ⟨range, _, steps, finished _ _, ends _ steps (finished _ _), ?_, ?_⟩
  · dsimp only
    exact hits
  intro other otherSteps otherFinished
  exact (inRange range).2 other _ otherSteps otherFinished steps (finished _ _)

end Shared

end Telemetry
