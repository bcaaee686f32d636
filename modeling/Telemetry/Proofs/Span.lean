import Mathlib.Data.List.TakeWhile

namespace Telemetry

variable {α : Type} {p : α → Bool} {front rest : List α}

theorem span_of_stop (stops : ∀ a ∈ rest.head?, p a = false) :
    rest.takeWhile p = [] ∧ rest.dropWhile p = rest := by
  cases rest with
  | nil => exact ⟨rfl, rfl⟩
  | cons first others =>
    have other : ¬ p first = true := by
      rw [stops first rfl]
      exact nofun
    exact ⟨List.takeWhile_cons_of_neg other, List.dropWhile_cons_of_neg other⟩

theorem span_append (all : ∀ a ∈ front, p a = true) (stops : ∀ a ∈ rest.head?, p a = false) :
    (front ++ rest).takeWhile p = front ∧ (front ++ rest).dropWhile p = rest := by
  have stop := span_of_stop stops
  rw [List.takeWhile_append_of_pos all, List.dropWhile_append_of_pos all, stop.1, stop.2,
    List.append_nil]
  exact ⟨rfl, rfl⟩

theorem span_of_all (all : ∀ a ∈ front, p a = true) :
    front.takeWhile p = front ∧ front.dropWhile p = [] :=
  ⟨List.takeWhile_eq_self_iff.2 all, List.dropWhile_eq_nil_iff.2 all⟩

end Telemetry
