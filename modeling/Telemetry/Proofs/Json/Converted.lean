import Mathlib.Data.List.Forall2
import Telemetry.Json.Record
import Telemetry.Proofs.Result

/-!
Readers that answer what other readers do, converted. Main statement: lists, optional values and
records are read as converted exactly where they are read at all and each of their parts can be
converted; and so are documents.
-/
namespace Telemetry

theorem mapM_eq_ok_iff {ε α β : Type} {f : α → Except ε β} {inputs : List α} {outputs : List β} :
    inputs.mapM f = .ok outputs ↔
      List.Forall₂ (fun input output => f input = .ok output) inputs outputs := by
  induction inputs generalizing outputs with
  | nil =>
    rw [List.mapM_nil, List.forall₂_nil_left_iff, pure_eq_ok, Except.ok.injEq, eq_comm]
  | cons first rest ih =>
    simp only [List.mapM_cons, bind_eq_ok_iff, ih, pure_eq_ok, Except.ok.injEq,
      List.forall₂_cons_left_iff]
    constructor
    · rintro ⟨output, here, others, later, rfl⟩
      exact ⟨output, others, here, later, rfl⟩
    · rintro ⟨output, others, here, later, rfl⟩
      exact ⟨output, here, others, later, rfl⟩

/-! ### Optional values -/

section Optional

variable {α β : Type} {R : α → β → Prop}

theorem rightUnique_option (unique : Relator.RightUnique R) :
    Relator.RightUnique (Option.Rel R) := by
  rintro _ _ _ (here | _) (there | _)
  · exact congrArg some (unique here there)
  · rfl

theorem rightUnique_eq_some (f : α → Option β) : Relator.RightUnique fun a b => f a = some b := by
  intro a b c here there
  exact Option.some.inj (here.symm.trans there)

theorem isSome_rel {a : Option α} {b : Option β} (related : Option.Rel R a b) :
    a.isSome = b.isSome := by
  cases related <;> rfl

theorem exists_of_rel_some {a : Option α} {b : β} (related : Option.Rel R a (some b)) :
    ∃ inner, a = some inner ∧ R inner b := by
  cases related with
  | some related => exact ⟨_, rfl, related⟩

theorem rel_getD_iff {a : Option (Option α)} {b : Option β} :
    Option.Rel R (a.getD none) b ↔ ∃ c, Option.Rel (Option.Rel R) a c ∧ c.getD none = b := by
  constructor
  · intro related
    cases a with
    | none =>
      cases related
      exact ⟨none, .none, rfl⟩
    | some a => exact ⟨some b, .some related, rfl⟩
  · rintro ⟨c, related, rfl⟩
    cases related with
    | none => exact .none
    | some related => exact related

theorem exists_rel_iff {f : α → Option β} {a : Option α} :
    (∃ b, Option.Rel (fun a b => f a = some b) a b) ↔ ∀ inner ∈ a, (f inner).isSome := by
  cases a with
  | none => exact ⟨fun _ => nofun, fun _ => ⟨none, .none⟩⟩
  | some a =>
    constructor
    · rintro ⟨_, related⟩ _ ⟨⟩
      cases related with
      | some made => rw [made]; rfl
    · intro inRange
      obtain ⟨b, made⟩ := Option.isSome_iff_exists.1 (inRange a rfl)
      exact ⟨some b, .some made⟩

end Optional

namespace Json

variable {α β γ ρ σ : Type} {R : α → β → Prop}

/-- Where one reader answers a value, the other one answers what it is converted to, if it can be.
-/
def Converts (read : Reader α) (R : α → β → Prop) (converted : Reader β) : Prop :=
  ∀ ⦃bound : Nat⦄ ⦃input : Bytes⦄ ⦃b : β⦄ ⦃rest : Bytes⦄,
    converted bound input = .ok (b, rest) ↔ ∃ a, read bound input = .ok (a, rest) ∧ R a b

theorem Converts.comp {read : Reader α} {middle : Reader β} {last : Reader γ} {S : β → γ → Prop}
    (first : Converts read R middle) (second : Converts middle S last) :
    Converts read (fun a c => ∃ b, R a b ∧ S b c) last := by
  intro bound input c rest
  rw [second]
  constructor
  · rintro ⟨b, done, there⟩
    obtain ⟨a, done, here⟩ := first.1 done
    exact ⟨a, done, b, here, there⟩
  · rintro ⟨a, done, b, here, there⟩
    exact ⟨b, first.2 ⟨a, done, here⟩, there⟩

theorem mapped_eq_ok_iff {f : α → β} {read : Reader α} {bound : Nat} {input rest : Bytes} {b : β} :
    mapped f read bound input = .ok (b, rest) ↔ ∃ a, read bound input = .ok (a, rest) ∧
      f a = b := by
  rw [mapped, map_eq_ok_iff]
  constructor
  · rintro ⟨⟨a, after⟩, done, same⟩
    cases same
    exact ⟨a, done, rfl⟩
  · rintro ⟨a, done, rfl⟩
    exact ⟨(a, rest), done, rfl⟩

theorem Converts.self (read : Reader α) : Converts read Eq read := by
  intro bound input b rest
  simp

theorem Converts.optional {read : Reader α} {converted : Reader β}
    (converts : Converts read R converted) :
    Converts (optional read) (Option.Rel R) (optional converted) := by
  intro bound input b rest
  unfold Json.optional
  split
  · simp only [map_eq_ok_iff, Prod.mk.injEq]
    constructor
    · rintro ⟨after, done, rfl, rfl⟩
      exact ⟨none, ⟨after, done, rfl, rfl⟩, .none⟩
    · rintro ⟨a, ⟨after, done, rfl, rfl⟩, related⟩
      cases related
      exact ⟨after, done, rfl, rfl⟩
  · simp only [mapped_eq_ok_iff, @converts bound input]
    constructor
    · rintro ⟨b, ⟨a, done, related⟩, rfl⟩
      exact ⟨some a, ⟨a, done, rfl⟩, .some related⟩
    · rintro ⟨_, ⟨a, done, rfl⟩, related⟩
      cases related with
      | some related => exact ⟨_, ⟨a, done, related⟩, rfl⟩

/-! ### Lists -/

theorem elements_eq (read : Reader α) (first : Bool) (done : List α) (bound : Nat) (input : Bytes) :
    elements read first done bound input =
      (elements read first [] bound input).map fun (values, rest) =>
        (done.reverse ++ values, rest) := by
  induction bound generalizing first done input with
  | zero => rfl
  | succ bound ih =>
    simp only [elements]
    cases nextElement first input with
    | error fault => rfl
    | ok next =>
      cases next with
      | done rest => simp
      | part part =>
        simp only [ok_bind]
        cases read bound part with
        | error fault => rfl
        | ok result =>
          obtain ⟨value, after⟩ := result
          simp only [ok_bind]
          rw [ih false (value :: done), ih false [value]]
          cases elements read false [] bound after with
          | error fault => rfl
          | ok result => simp

theorem elements_part_eq_ok_iff {read : Reader α} {first : Bool} {bound : Nat}
    {input part rest : Bytes} {values : List α}
    (next : nextElement first input = .ok (.part part)) :
    elements read first [] (bound + 1) input = .ok (values, rest) ↔
      ∃ value after others, read bound part = .ok (value, after) ∧
        elements read false [] bound after = .ok (others, rest) ∧ values = value :: others := by
  simp only [elements, next, ok_bind, bind_eq_ok_iff, Prod.exists]
  constructor
  · rintro ⟨value, after, here, later⟩
    rw [elements_eq, map_eq_ok_iff] at later
    obtain ⟨⟨others, last⟩, later, same⟩ := later
    cases same
    exact ⟨value, after, others, here, later, rfl⟩
  · rintro ⟨value, after, others, here, later, rfl⟩
    refine ⟨value, after, here, ?_⟩
    rw [elements_eq, later]
    rfl

theorem Converts.elements {read : Reader α} {converted : Reader β}
    (converts : Converts read R converted) (first : Bool) :
    Converts (elements read first []) (List.Forall₂ R) (elements converted first []) := by
  intro bound input values rest
  induction bound generalizing first input values rest with
  | zero => simp [Json.elements]
  | succ bound ih =>
    rcases next : nextElement first input with fault | ⟨after | part⟩
    · simp [Json.elements, next]
    · simp only [Json.elements, next, ok_bind, pure_eq_ok, List.reverse_nil, Except.ok.injEq,
        Prod.mk.injEq]
      constructor
      · rintro ⟨rfl, rfl⟩
        exact ⟨[], ⟨rfl, rfl⟩, .nil⟩
      · rintro ⟨_, ⟨rfl, rfl⟩, related⟩
        exact ⟨(List.forall₂_nil_left_iff.1 related).symm, rfl⟩
    · simp only [elements_part_eq_ok_iff next]
      constructor
      · rintro ⟨b, after, others, here, later, rfl⟩
        obtain ⟨a, here, related⟩ := converts.1 here
        obtain ⟨as, later, allRelated⟩ := (ih false).1 later
        exact ⟨a :: as, ⟨a, after, as, here, later, rfl⟩, .cons related allRelated⟩
      · rintro ⟨_, ⟨a, after, as, here, later, rfl⟩, related⟩
        cases related with
        | cons related allRelated =>
          exact ⟨_, after, _, converts.2 ⟨a, here, related⟩, (ih false).2 ⟨as, later, allRelated⟩,
            rfl⟩

theorem Converts.list {read : Reader α} {converted : Reader β}
    (converts : Converts read R converted) :
    Converts (list read) (List.Forall₂ R) (list converted) := by
  have parts := converts.elements true
  intro bound input values rest
  unfold Json.list onFirst
  cases skipBlank input with
  | nil => simp
  | cons b after =>
    dsimp only
    split
    · exact @parts bound after values rest
    · simp

/-! ### Records -/

section Members

variable {fields : List (Field σ)} {first : Bool} {record filled : σ} {bound : Nat}
  {input part after rest : Bytes}
  {name : String} {field : Field σ}

theorem members_known_eq_ok_iff (next : nextMember first input = .ok (.part part))
    (named : stringRest part = .ok (name, after))
    (found : fields.find? (·.name == name) = some field) :
    members fields first record (bound + 1) input = .ok (filled, rest) ↔
      field.taken record = false ∧ ∃ value enter later, colon after = .ok value ∧
        field.read bound value = .ok (enter, later) ∧
          members fields false (enter record) bound later = .ok (filled, rest) := by
  cases taken : field.taken record <;>
    simp [members, next, named, found, taken, bind_eq_ok_iff]

theorem members_unknown_eq_ok_iff (next : nextMember first input = .ok (.part part))
    (named : stringRest part = .ok (name, after)) (unknown : fields.find? (·.name == name) = none) :
    members fields first record (bound + 1) input = .ok (filled, rest) ↔
      ∃ value skipped later, colon after = .ok value ∧ skip bound value = .ok (skipped, later) ∧
        members fields false record bound later = .ok (filled, rest) := by
  simp [members, next, named, unknown, bind_eq_ok_iff]

theorem positional_part_eq_ok_iff (next : nextElement first input = .ok (.part part)) :
    positional bound first record (field :: fields) input = .ok (filled, rest) ↔
      ∃ enter later, field.read bound part = .ok (enter, later) ∧
        positional bound false (enter record) fields later = .ok (filled, rest) := by
  simp [positional, next, bind_eq_ok_iff]

end Members

/-- Fields of two records that are read alike, where `D` tells what a record is converted to. -/
structure Field.Converts (D : ρ → σ → Prop) (raw : Field ρ) (field : Field σ) : Prop where
  name : raw.name = field.name
  taken : ∀ {r : ρ} {s : σ}, D r s → raw.taken r = field.taken s
  enters : ∀ {bound : Nat} {input rest : Bytes} {r : ρ} {s s' : σ}, D r s →
    ((∃ enter, field.read bound input = .ok (enter, rest) ∧ enter s = s') ↔
      ∃ enter, raw.read bound input = .ok (enter, rest) ∧ D (enter r) s')
  /-- A record that cannot be converted cannot be either once one more field has been entered. -/
  stays : ∀ {bound : Nat} {input rest : Bytes} {enter : ρ → ρ} {r : ρ} {s' : σ},
    raw.taken r = false →
    raw.read bound input = .ok (enter, rest) → D (enter r) s' → ∃ s, D r s

def Field.Apart (one other : Field ρ) : Prop :=
  ∀ ⦃bound : Nat⦄ ⦃input rest : Bytes⦄ ⦃enter : ρ → ρ⦄ (r : ρ),
    one.read bound input = .ok (enter, rest) → other.taken (enter r) = other.taken r

/-- A field into which what is read is put, if nothing else is part of what a record is converted
to. -/
theorem Field.Converts.of_reader {D : ρ → σ → Prop} (unique : Relator.RightUnique D)
    {read : Reader α} {converted : Reader β} (converts : Json.Converts read R converted)
    (name : String) {taken : ρ → Bool} {taken' : σ → Bool} {put : α → ρ → ρ} {put' : β → σ → σ}
    (takes : ∀ {r s}, D r s → taken r = taken' s)
    (puts : ∀ {r s a b}, D r s → R a b → D (put a r) (put' b s))
    (part : ∀ {r s' a}, D (put a r) s' → ∃ b, R a b)
    (without : ∀ {r s' a}, taken r = false → D (put a r) s' → ∃ s, D r s) :
    Field.Converts D ⟨name, taken, mapped put read⟩ ⟨name, taken', mapped put' converted⟩ where
  name := rfl
  taken := takes
  enters := by
    intro bound input rest r s s' related
    simp only [mapped_eq_ok_iff]
    constructor
    · rintro ⟨_, ⟨b, done, rfl⟩, rfl⟩
      obtain ⟨a, done, here⟩ := converts.1 done
      exact ⟨put a, ⟨a, done, rfl⟩, puts related here⟩
    · rintro ⟨_, ⟨a, done, rfl⟩, last⟩
      obtain ⟨b, here⟩ := part last
      exact ⟨put' b, ⟨b, converts.2 ⟨a, done, here⟩, rfl⟩, unique (puts related here) last⟩
  stays := by
    intro bound input rest enter r s' free done last
    obtain ⟨a, -, rfl⟩ := mapped_eq_ok_iff.1 done
    exact without free last

section Records

variable {D : ρ → σ → Prop} {raws : List (Field ρ)} {fields : List (Field σ)}

theorem find?_converts (matched : List.Forall₂ (Field.Converts D) raws fields) (name : String) :
    Option.Rel (Field.Converts D) (raws.find? (·.name == name))
      (fields.find? (·.name == name)) := by
  induction matched with
  | nil => exact .none
  | cons here later ih =>
    rw [List.find?_cons, List.find?_cons, here.name]
    split
    · exact .some here
    · exact ih

theorem stays_members (matched : List.Forall₂ (Field.Converts D) raws fields) {first : Bool}
    {r r' : ρ} {s' : σ} {bound : Nat} {input rest : Bytes}
    (done : members raws first r bound input = .ok (r', rest)) (related : D r' s') :
    ∃ s, D r s := by
  induction bound generalizing first r input with
  | zero => cases done
  | succ bound ih =>
    rcases next : nextMember first input with fault | ⟨after | part⟩
    · simp [members, next] at done
    · simp only [members, next, ok_bind, pure_eq_ok, Except.ok.injEq, Prod.mk.injEq] at done
      exact ⟨s', done.1 ▸ related⟩
    rcases named : stringRest part with fault | ⟨name, after⟩
    · simp [members, next, named] at done
    have known := find?_converts matched name
    cases found : raws.find? (·.name == name) with
    | none =>
      obtain ⟨value, skipped, later, -, -, done⟩ :=
        (members_unknown_eq_ok_iff next named found).1 done
      exact ih done
    | some raw =>
      obtain ⟨free, value, enter, later, -, here, done⟩ :=
        (members_known_eq_ok_iff next named found).1 done
      obtain ⟨s, related⟩ := ih done
      rw [found] at known
      generalize fields.find? (·.name == name) = other at known
      cases known with
      | some converts => exact converts.stays free here related

theorem members_converts (unique : Relator.RightUnique D)
    (matched : List.Forall₂ (Field.Converts D) raws fields) (first : Bool) {r : ρ} {s s' : σ}
    (related : D r s) {bound : Nat} {input rest : Bytes} :
    members fields first s bound input = .ok (s', rest) ↔
      ∃ r', members raws first r bound input = .ok (r', rest) ∧ D r' s' := by
  induction bound generalizing first r s input with
  | zero => simp [members]
  | succ bound ih =>
    rcases next : nextMember first input with fault | ⟨after | part⟩
    · simp [members, next]
    · simp only [members, next, ok_bind, pure_eq_ok, Except.ok.injEq, Prod.mk.injEq]
      constructor
      · rintro ⟨rfl, rfl⟩
        exact ⟨r, ⟨rfl, rfl⟩, related⟩
      · rintro ⟨_, ⟨rfl, rfl⟩, last⟩
        exact ⟨unique related last, rfl⟩
    rcases named : stringRest part with fault | ⟨name, after⟩
    · simp [members, next, named]
    have known := find?_converts matched name
    rcases found : raws.find? (·.name == name) with _ | raw <;>
      rcases found' : fields.find? (·.name == name) with _ | field <;>
        rw [found, found'] at known <;> cases known
    · simp only [members_unknown_eq_ok_iff next named found,
        members_unknown_eq_ok_iff next named found', ih false related]
      constructor
      · rintro ⟨value, skipped, later, separated, onward, r', done, last⟩
        exact ⟨r', ⟨value, skipped, later, separated, onward, done⟩, last⟩
      · rintro ⟨r', ⟨value, skipped, later, separated, onward, done⟩, last⟩
        exact ⟨value, skipped, later, separated, onward, r', done, last⟩
    · rename_i converts
      simp only [members_known_eq_ok_iff next named found,
        members_known_eq_ok_iff next named found', converts.taken related]
      constructor
      · rintro ⟨free, value, enter, later, separated, here, done⟩
        obtain ⟨enter', here', relatedNext⟩ := (converts.enters related).1 ⟨enter, here, rfl⟩
        obtain ⟨r', done', relatedLast⟩ := (ih false relatedNext).1 done
        exact ⟨r', ⟨free, value, enter', later, separated, here', done'⟩, relatedLast⟩
      · rintro ⟨r', ⟨free, value, enter', later, separated, here', done'⟩, relatedLast⟩
        -- A record that is related in the end was related all along.
        obtain ⟨s'', relatedNext⟩ := stays_members matched done' relatedLast
        obtain ⟨enter, here, rfl⟩ := (converts.enters related).2 ⟨enter', here', relatedNext⟩
        exact ⟨free, value, enter, later, separated, here,
          (ih false relatedNext).2 ⟨r', done', relatedLast⟩⟩

theorem stays_positional (matched : List.Forall₂ (Field.Converts D) raws fields)
    (apart : raws.Pairwise Field.Apart) {r r' : ρ} (free : ∀ raw ∈ raws, raw.taken r = false)
    {first : Bool} {s' : σ} {bound : Nat} {input rest : Bytes}
    (done : positional bound first r raws input = .ok (r', rest)) (related : D r' s') :
    ∃ s, D r s := by
  induction matched generalizing first r input with
  | nil =>
    unfold positional at done
    split at done <;> cases done
    exact ⟨s', related⟩
  | @cons raw field raws fields converts matched ih =>
    rw [List.pairwise_cons] at apart
    rw [List.forall_mem_cons] at free
    rcases next : nextElement first input with fault | ⟨after | part⟩
    · simp [positional, next] at done
    · simp only [positional, next, ok_bind, pure_eq_ok, Except.ok.injEq, Prod.mk.injEq] at done
      exact ⟨s', done.1 ▸ related⟩
    · obtain ⟨enter, later, here, done⟩ := (positional_part_eq_ok_iff next).1 done
      have stillFree : ∀ other ∈ raws, other.taken (enter r) = false := by
        intro other member
        rw [apart.1 other member r here]
        exact free.2 other member
      obtain ⟨s, related⟩ := ih apart.2 stillFree done
      exact converts.stays free.1 here related

theorem positional_converts (unique : Relator.RightUnique D)
    (matched : List.Forall₂ (Field.Converts D) raws fields) (apart : raws.Pairwise Field.Apart)
    (first : Bool) {r : ρ} {s s' : σ} (related : D r s) (free : ∀ raw ∈ raws, raw.taken r = false)
    {bound : Nat} {input rest : Bytes} :
    positional bound first s fields input = .ok (s', rest) ↔
      ∃ r', positional bound first r raws input = .ok (r', rest) ∧ D r' s' := by
  induction matched generalizing first r s input with
  | nil =>
    unfold positional
    split
    · simp
    · simp only [Except.ok.injEq, Prod.mk.injEq]
      constructor
      · rintro ⟨rfl, rfl⟩
        exact ⟨r, ⟨rfl, rfl⟩, related⟩
      · rintro ⟨_, ⟨rfl, rfl⟩, last⟩
        exact ⟨unique related last, rfl⟩
    · simp
  | @cons raw field raws fields converts matched ih =>
    rw [List.pairwise_cons] at apart
    rw [List.forall_mem_cons] at free
    rcases next : nextElement first input with fault | ⟨after | part⟩
    · simp [positional, next]
    · simp only [positional, next, ok_bind, pure_eq_ok, Except.ok.injEq, Prod.mk.injEq]
      constructor
      · rintro ⟨rfl, rfl⟩
        exact ⟨r, ⟨rfl, rfl⟩, related⟩
      · rintro ⟨_, ⟨rfl, rfl⟩, last⟩
        exact ⟨unique related last, rfl⟩
    · have stillFree : ∀ {enter later}, raw.read bound part = .ok (enter, later) →
          ∀ other ∈ raws, other.taken (enter r) = false := by
        intro enter later here other member
        rw [apart.1 other member r here]
        exact free.2 other member
      simp only [positional_part_eq_ok_iff next]
      constructor
      · rintro ⟨enter, later, here, done⟩
        obtain ⟨enter', here', relatedNext⟩ := (converts.enters related).1 ⟨enter, here, rfl⟩
        obtain ⟨r', done', last⟩ := (ih apart.2 false relatedNext (stillFree here')).1 done
        exact ⟨r', ⟨enter', later, here', done'⟩, last⟩
      · rintro ⟨r', ⟨enter', later, here', done'⟩, last⟩
        obtain ⟨s'', relatedNext⟩ := stays_positional matched apart.2 (stillFree here') done' last
        obtain ⟨enter, here, rfl⟩ := (converts.enters related).2 ⟨enter', here', relatedNext⟩
        exact ⟨enter, later, here,
          (ih apart.2 false relatedNext (stillFree here')).2 ⟨r', done', last⟩⟩

theorem finished_eq_ok_iff {finish : σ → Except Fault β} {filled : Except Fault (σ × Bytes)} {b : β}
    {rest : Bytes} :
    (filled >>= fun (s, rest) => do return (← finish s, rest)) = .ok (b, rest) ↔
      ∃ s, filled = .ok (s, rest) ∧ finish s = .ok b := by
  rcases filled with fault | ⟨s, after⟩
  · simp
  · cases made : finish s <;> simp [made, and_comm, eq_comm]

/-- A record is converted as its fields are, whether it comes as an object or as an array. -/
theorem Converts.record {start : ρ} {empty : σ} {rawFinish : ρ → Except Fault α}
    {finish : σ → Except Fault β} (unique : Relator.RightUnique D)
    (matched : List.Forall₂ (Field.Converts D) raws fields) (apart : raws.Pairwise Field.Apart)
    (free : ∀ raw ∈ raws, raw.taken start = false) (related : D start empty)
    (finished : ∀ r b, (∃ a, rawFinish r = .ok a ∧ R a b) ↔ ∃ s, D r s ∧ finish s = .ok b) :
    Converts (record raws start rawFinish) R (record fields empty finish) := by
  intro bound input b rest
  have judged : ∀ {filled : Except Fault (σ × Bytes)} {raw : Except Fault (ρ × Bytes)},
      (∀ s, filled = .ok (s, rest) ↔ ∃ r, raw = .ok (r, rest) ∧ D r s) →
      ((filled >>= fun (s, rest) => do return (← finish s, rest)) = .ok (b, rest) ↔
        ∃ a, (raw >>= fun (r, rest) => do return (← rawFinish r, rest)) = .ok (a, rest) ∧
          R a b) := by
    intro filled raw converts
    simp only [finished_eq_ok_iff, converts]
    constructor
    · rintro ⟨s, ⟨r, done, related⟩, made⟩
      obtain ⟨a, rawMade, here⟩ := (finished r b).2 ⟨s, related, made⟩
      exact ⟨a, ⟨r, done, rawMade⟩, here⟩
    · rintro ⟨a, ⟨r, done, rawMade⟩, here⟩
      obtain ⟨s, related, made⟩ := (finished r b).1 ⟨a, rawMade, here⟩
      exact ⟨s, ⟨r, done, related⟩, made⟩
  unfold Json.record onFirst
  cases skipBlank input with
  | nil => simp
  | cons c after =>
    by_cases object : c = 0x7b
    · simp only [if_pos object]
      exact judged fun s => members_converts unique matched true related
    by_cases array : c = 0x5b
    · simp only [if_neg object, if_pos array]
      exact judged fun s => positional_converts unique matched apart true related free
    · simp only [if_neg object, if_neg array]
      exact judged fun s => by simp

end Records

/-! ### Numbers -/

def anyNumber : Reader Number := onFirst fun b rest =>
  if beginsNumber b then number (b :: rest) else .error (misfit b rest)

theorem converts_binary64 : Converts anyNumber (fun n v => n.toBinary64? = some v) binary64 := by
  intro bound input v rest
  unfold anyNumber binary64 onFirst
  cases skipBlank input with
  | nil => simp
  | cons b after =>
    by_cases begins : beginsNumber b = true
    · simp only [if_pos begins]
      rcases number (b :: after) with fault | ⟨n, last⟩
      · simp
      · cases rounded : n.toBinary64? <;> simp [rounded, and_comm]
    · simp only [if_neg begins]
      simp

theorem converts_int64 : Converts anyNumber (fun n d => n.toInt64? = some d) int64 := by
  intro bound input d rest
  unfold anyNumber int64 onFirst
  cases skipBlank input with
  | nil => simp
  | cons b after =>
    by_cases begins : beginsNumber b = true
    · simp only [if_pos begins]
      rcases number (b :: after) with fault | ⟨n, last⟩
      · simp
      · cases whole : n.toInt64? <;> simp [whole, and_comm]
    · simp only [if_neg begins]
      simp

/-! ### Documents -/

theorem document_eq_ok_iff {read : Reader α} {input : Bytes} {value : α} :
    document read input = .ok value ↔
      ∃ rest, read (input.length + 1) input = .ok (value, rest) ∧
        (skipBlank rest).isEmpty = true := by
  rw [document, bind_eq_ok_iff]
  constructor
  · rintro ⟨⟨value, rest⟩, done, blank⟩
    dsimp only at blank
    split at blank
    · cases blank
      exact ⟨rest, done, ‹_›⟩
    · cases blank
  · rintro ⟨rest, done, blank⟩
    exact ⟨(value, rest), done, if_pos blank⟩

theorem Converts.document {read : Reader α} {converted : Reader β}
    (converts : Converts read R converted) {input : Bytes} {b : β} :
    document converted input = .ok b ↔ ∃ a, document read input = .ok a ∧ R a b := by
  simp only [document_eq_ok_iff]
  constructor
  · rintro ⟨rest, done, blank⟩
    obtain ⟨a, done, related⟩ := converts.1 done
    exact ⟨a, ⟨rest, done, blank⟩, related⟩
  · rintro ⟨a, ⟨rest, done, blank⟩, related⟩
    exact ⟨rest, converts.2 ⟨a, done, related⟩, blank⟩

end Json
end Telemetry
