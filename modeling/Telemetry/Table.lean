namespace Telemetry

class Ascending (κ : Type) extends LT κ where
  decidable : DecidableLT κ
  equality : DecidableEq κ
  irrefl : ∀ a : κ, ¬ a < a
  trans : ∀ {a b c : κ}, a < b → b < c → a < c
  connected : ∀ a b : κ, a < b ∨ a = b ∨ b < a

attribute [reducible, instance] Ascending.decidable Ascending.equality

instance : Ascending String where
  decidable := inferInstance
  equality := inferInstance
  irrefl := String.lt_irrefl
  trans := String.lt_trans
  connected a b := by
    by_cases h : a < b
    · exact .inl h
    by_cases g : b < a
    · exact .inr (.inr g)
    · exact .inr (.inl (String.le_antisymm (String.not_lt.1 g) (String.not_lt.1 h)))

namespace Table

variable {κ α : Type} [Ascending κ]

def insert (key : κ) (value : α) : List (κ × α) → List (κ × α)
  | [] => [(key, value)]
  | first :: rest =>
    if key < first.1 then (key, value) :: first :: rest
    else if key = first.1 then (key, value) :: rest
    else first :: insert key value rest

def find? (key : κ) : List (κ × α) → Option α
  | [] => none
  | first :: rest => if key = first.1 then some first.2 else find? key rest

def Sorted (entries : List (κ × α)) : Prop := entries.Pairwise fun a b => a.1 < b.1

theorem fst_of_mem_insert {key : κ} {value : α} {entries : List (κ × α)} {entry : κ × α}
    (member : entry ∈ insert key value entries) : entry.1 = key ∨ entry ∈ entries := by
  induction entries with
  | nil => simp [insert] at member; exact .inl (member ▸ rfl)
  | cons first rest ih =>
    unfold insert at member
    split at member
    · rcases List.mem_cons.1 member with rfl | inRest
      · exact .inl rfl
      · exact .inr inRest
    split at member
    · rcases List.mem_cons.1 member with rfl | inRest
      · exact .inl rfl
      · exact .inr (List.mem_cons_of_mem _ inRest)
    · rcases List.mem_cons.1 member with rfl | inRest
      · exact .inr (List.mem_cons_self ..)
      · exact (ih inRest).imp_right (List.mem_cons_of_mem _)

theorem sorted_insert (key : κ) (value : α) {entries : List (κ × α)} (sorted : Sorted entries) :
    Sorted (insert key value entries) := by
  induction entries with
  | nil => simp [insert, Sorted]
  | cons first rest ih =>
    obtain ⟨below, sortedRest⟩ := List.pairwise_cons.1 sorted
    unfold insert
    split
    · rename_i before
      refine List.pairwise_cons.2 ⟨?_, sorted⟩
      intro entry member
      rcases List.mem_cons.1 member with rfl | inRest
      · exact before
      · exact Ascending.trans before (below entry inRest)
    split
    · rename_i same
      exact List.pairwise_cons.2 ⟨fun entry member => same ▸ below entry member, sortedRest⟩
    · rename_i notBefore notSame
      refine List.pairwise_cons.2 ⟨?_, ih sortedRest⟩
      intro entry member
      rcases fst_of_mem_insert member with same | inRest
      · rw [same]
        rcases Ascending.connected key first.1 with h | h | h
        · exact absurd h notBefore
        · exact absurd h notSame
        · exact h
      · exact below entry inRest

theorem find?_insert_self (key : κ) (value : α) (entries : List (κ × α)) :
    find? key (insert key value entries) = some value := by
  induction entries with
  | nil => simp [insert, find?]
  | cons first rest ih =>
    unfold insert
    split
    · simp [find?]
    split
    · simp [find?]
    · rename_i notSame
      simp [find?, notSame, ih]

theorem find?_insert_of_ne {key other : κ} (differ : other ≠ key) (value : α)
    (entries : List (κ × α)) : find? other (insert key value entries) = find? other entries := by
  induction entries with
  | nil => simp [insert, find?, differ]
  | cons first rest ih =>
    unfold insert
    split
    · simp [find?, differ]
    split
    · rename_i same
      simp [find?, ← same, differ]
    · simp only [find?, ih]

end Table

/-- A finite map from `κ` to `α`. -/
structure Table (κ α : Type) [Ascending κ] where
  entries : List (κ × α)
  sorted : Table.Sorted entries

namespace Table

variable {κ α : Type} [Ascending κ]

def empty : Table κ α := ⟨[], List.Pairwise.nil⟩

instance : Inhabited (Table κ α) := ⟨empty⟩

def get? (table : Table κ α) (key : κ) : Option α := find? key table.entries

def put (table : Table κ α) (key : κ) (value : α) : Table κ α :=
  ⟨insert key value table.entries, sorted_insert key value table.sorted⟩

def size (table : Table κ α) : Nat := table.entries.length

@[simp] theorem get?_empty (key : κ) : (empty : Table κ α).get? key = none := rfl

@[simp] theorem get?_put_self (table : Table κ α) (key : κ) (value : α) :
    (table.put key value).get? key = some value := find?_insert_self key value table.entries

theorem get?_put_of_ne (table : Table κ α) {key other : κ} (differ : other ≠ key) (value : α) :
    (table.put key value).get? other = table.get? other :=
  find?_insert_of_ne differ value table.entries

theorem get?_put (table : Table κ α) (key other : κ) (value : α) :
    (table.put key value).get? other = if other = key then some value else table.get? other := by
  split
  · rename_i same; rw [same, get?_put_self]
  · rename_i differ; exact get?_put_of_ne table differ value

end Table
end Telemetry
