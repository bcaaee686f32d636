import Telemetry.Proofs.Store.History

namespace Telemetry

open Decimal (FitsInt64)

namespace History

theorem total_append (id : String) (front back : List Metric) :
    total id (front ++ back) = total id front + total id back := by
  rw [total, deltas, List.filterMap_append, List.sum_append]
  rfl

theorem total_cons (id : String) (m : Metric) (rest : List Metric) :
    total id (m :: rest) = total id [m] + total id rest := total_append id [m] rest

theorem total_gauge (id other : String) (reading : Binary64) :
    total other [⟨id, .gauge reading⟩] = 0 := rfl

theorem total_counter_self (id : String) (delta : Int64) :
    total id [⟨id, .counter delta⟩] = delta.toInt := by
  simp [total, deltas]

theorem total_counter_of_ne {id other : String} (differ : id ≠ other) (delta : Int64) :
    total other [⟨id, .counter delta⟩] = 0 := by
  simp [total, deltas, differ]

end History

namespace Contents

variable {contents next : Contents} {m : Metric}

/-- Somewhere on the way through the metrics, the exact total of a counter leaves the 64-bit range.
-/
def Overflows (contents : Contents) (ms : List Metric) : Prop :=
  ∃ front id, front <+: ms ∧ ¬ FitsInt64 ((contents.total id).toInt + History.total id front)

theorem total_put_gauge (contents : Contents) (id other : String) (reading : Binary64) :
    Contents.total (contents.put ⟨id, .gauge⟩ (.gauge reading)) other = contents.total other := by
  have differ : (⟨other, .counter⟩ : Key) ≠ ⟨id, .gauge⟩ := by simp
  rw [total, Table.get?_put, if_neg differ, total]

theorem total_put_counter (contents : Contents) (id other : String) (sum : Int64) :
    Contents.total (contents.put ⟨id, .counter⟩ (.counter sum)) other =
      if other = id then sum else contents.total other := by
  by_cases same : other = id
  · rw [total, Table.get?_put, same, if_pos rfl, if_pos rfl]
  · have differ : (⟨other, .counter⟩ : Key) ≠ ⟨id, .counter⟩ := by
      intro equal
      exact same (congrArg Key.id equal)
    rw [total, Table.get?_put, if_neg differ, if_neg same, total]

theorem total_of_update (taken : update m contents = (.ok (), next)) (id : String) :
    (next.total id).toInt = (contents.total id).toInt + History.total id [m] := by
  have named := named_of_update taken
  obtain ⟨own, value⟩ := m
  cases value with
  | gauge reading =>
    rw [update_gauge named] at taken
    obtain rfl := congrArg Prod.snd taken
    rw [History.total_gauge, Int.add_zero]
    exact congrArg Int64.toInt (total_put_gauge contents own id reading)
  | counter delta =>
    rw [update_counter named] at taken
    cases sum : Memory.sum? (contents.total own) delta with
    | none =>
      rw [sum] at taken
      cases taken
    | some value =>
      rw [sum] at taken
      obtain rfl := congrArg Prod.snd taken
      refine (congrArg Int64.toInt (total_put_counter contents own id value)).trans ?_
      by_cases same : id = own
      · rw [if_pos same, same, History.total_counter_self]
        exact Decimal.toInt64?_eq_some.1 sum
      · have differ : own ≠ id := fun equal => same equal.symm
        rw [if_neg same, History.total_counter_of_ne differ, Int.add_zero]

theorem update_of_named (named : m.id ≠ "") (contents : Contents) :
    (∃ next, update m contents = (.ok (), next)) ∨
      update m contents = (.error (.overflow m.id), contents) ∧
        ¬ FitsInt64 ((contents.total m.id).toInt + History.total m.id [m]) := by
  obtain ⟨id, value⟩ := m
  cases value with
  | gauge reading => exact .inl ⟨_, update_gauge named reading contents⟩
  | counter delta =>
    rw [update_counter named, History.total_counter_self]
    cases sum : Memory.sum? (contents.total id) delta with
    | some value => exact .inl ⟨_, rfl⟩
    | none => exact .inr ⟨rfl, Decimal.toInt64?_eq_none.1 sum⟩

theorem not_overflows_nil (contents : Contents) : ¬ contents.Overflows [] := by
  rintro ⟨front, id, within, overflow⟩
  obtain rfl := List.prefix_nil.1 within
  apply overflow
  rw [History.total, History.deltas, List.filterMap_nil, List.sum_nil, Int.add_zero]
  exact Decimal.fitsInt64_toInt _

theorem overflows_cons (taken : update m contents = (.ok (), next)) (rest : List Metric) :
    contents.Overflows (m :: rest) ↔ next.Overflows rest := by
  have sums : ∀ id front, (next.total id).toInt + History.total id front =
      (contents.total id).toInt + History.total id (m :: front) := by
    intro id front
    rw [total_of_update taken, History.total_cons id m front, Int.add_assoc]
  constructor
  · rintro ⟨front, id, within, overflow⟩
    cases front with
    | nil => exact absurd ⟨[], id, List.prefix_rfl, overflow⟩ (not_overflows_nil contents)
    | cons first front =>
      obtain ⟨rfl, inside⟩ := List.cons_prefix_cons.1 within
      refine ⟨front, id, inside, ?_⟩
      rw [sums]
      exact overflow
  · rintro ⟨front, id, within, overflow⟩
    refine ⟨m :: front, id, List.cons_prefix_cons.2 ⟨rfl, within⟩, ?_⟩
    rw [← sums]
    exact overflow

theorem updateEach_of_named {ms : List Metric} (named : ∀ m ∈ ms, m.id ≠ "") (contents : Contents) :
    (¬ contents.Overflows ms ∧ (updateEach update ms contents).1 = .ok ()) ∨
      contents.Overflows ms ∧ ∃ id, (updateEach update ms contents).1 = .error (.overflow id) := by
  induction ms generalizing contents with
  | nil => exact .inl ⟨not_overflows_nil contents, rfl⟩
  | cons m rest ih =>
    rw [List.forall_mem_cons] at named
    rcases update_of_named named.1 contents with ⟨next, taken⟩ | ⟨refused, overflow⟩
    · rw [overflows_cons taken, updateEach_cons_ok taken]
      exact ih named.2 next
    · rw [updateEach_cons_error refused]
      exact .inr ⟨⟨[m], m.id, List.cons_prefix_cons.2 ⟨rfl, List.nil_prefix⟩, overflow⟩, m.id, rfl⟩

end Contents

/-- The store in memory takes all metrics with ids exactly as long as no total leaves the range. -/
theorem Memory.updateEach_of_named {ms : List Metric} (named : ∀ m ∈ ms, m.id ≠ "")
    (memory : Memory) :
    (¬ memory.contents.Overflows ms ∧ (updateEach update ms memory).1 = .ok ()) ∨
      memory.contents.Overflows ms ∧
      ∃ id, (updateEach update ms memory).1 = .error (.overflow id) := by
  have outcome := Contents.updateEach_of_named named memory.contents
  rw [updateEach_contents] at outcome
  exact outcome

end Telemetry
