import Telemetry.Json.Record
import Telemetry.Proofs.Json.Text

/-!
Lists and records. A list is answered as its elements are, up to the first that is refused, and a
record written as an object is read if its members are entered one after the other; in both the
bound must exceed the number of parts.
-/
namespace Telemetry.Json

/-! ### Parts between commas -/

theorem flatten_intersperse_cons (separator first : Bytes) (parts : List Bytes) :
    ((first :: parts).intersperse separator).flatten = first ++ parts.flatMap (separator ++ ·) := by
  induction parts generalizing first with
  | nil => simp
  | cons second rest ih =>
    rw [List.intersperse_cons_cons, List.flatten_cons, List.flatten_cons, ih second,
      List.flatMap_cons, List.append_assoc]

def Begins (text : Bytes) (allowed : UInt8 → Prop) : Prop :=
  ∃ b others, text = b :: others ∧ isBlank b = false ∧ allowed b

theorem stops_comma (rest : Bytes) : Stops (0x2c :: rest) := stops_cons rest (by decide)

theorem stops_bracket (rest : Bytes) : Stops (0x5d :: rest) := stops_cons rest (by decide)

theorem stops_brace (rest : Bytes) : Stops (0x7d :: rest) := stops_cons rest (by decide)

/-! ### Readers made of readers -/

variable {α β : Type}

theorem Reads.mapped {read : Reader α} {bound : Nat} {text : Bytes} {value : α}
    (reads : Reads read bound text value) (f : α → β) :
    Reads (mapped f read) bound text (f value) := by
  intro rest stops
  rw [Json.mapped, reads rest stops]
  rfl

theorem Reads.optional {read : Reader α} {bound : Nat} {text : Bytes} {value : α}
    (reads : Reads read bound text value) (begins : Begins text (· ≠ 0x6e)) :
    Reads (optional read) bound text (some value) := by
  intro rest stops
  have some := reads.mapped Option.some rest stops
  obtain ⟨b, others, rfl, solid, notNull⟩ := begins
  rw [List.cons_append] at some ⊢
  rw [Json.optional, skipBlank_cons solid]
  split
  case h_1 same =>
    injection same with head
    exact absurd head notNull
  case h_2 => exact some

/-! ### Lists -/

section Lists

variable {read : Reader α} {write : β → Bytes} {least : Nat}

theorem nextElement_first {b : UInt8} (solid : isBlank b = false) (notEnd : b ≠ 0x5d)
    (rest : Bytes) :
    nextElement true (b :: rest) = .ok (.part (b :: rest)) := by
  rw [nextElement, skipBlank_cons solid]
  split
  case h_1 same => cases same
  case h_2 same =>
    injection same with head
    exact absurd head notEnd
  case h_3 same =>
    cases same
    rfl

theorem nextElement_comma {b : UInt8} (solid : isBlank b = false) (notEnd : b ≠ 0x5d)
    (rest : Bytes) :
    nextElement false (0x2c :: b :: rest) = .ok (.part (b :: rest)) := by
  have comma : skipBlank (0x2c :: b :: rest) = 0x2c :: b :: rest := skipBlank_cons rfl _
  have notClosed : (0x2c : UInt8) ≠ 0x5d := by decide
  rw [nextElement, comma]
  split
  case h_1 same => cases same
  case h_2 same =>
    injection same with head
    exact absurd head notClosed
  case h_3 same =>
    injection same with head tail
    subst head tail
    simp only [Bool.false_eq_true, if_false, if_true, skipBlank_cons solid]
    split
    case h_1 same => cases same
    case h_2 same =>
      injection same with head
      exact absurd head notEnd
    case h_3 => rfl

/-- A reader answers a text by an outcome, and goes on behind the text if that is a value. -/
def Answers (read : Reader α) (bound : Nat) (text : Bytes) (outcome : Except Fault α) : Prop :=
  ∀ rest, Stops rest → read bound (text ++ rest) = outcome.map (·, rest)

theorem elements_first {text : Bytes} {outcome : Except Fault α} {bound : Nat}
    (answers : Answers read bound text outcome) (begins : Begins text (· ≠ 0x5d)) (done : List α)
    {rest : Bytes} (stops : Stops rest) :
    elements read true done (bound + 1) (text ++ rest) =
      outcome >>= fun value => elements read false (value :: done) bound rest := by
  have here := answers rest stops
  obtain ⟨b, others, rfl, solid, notEnd⟩ := begins
  rw [List.cons_append] at here ⊢
  simp only [elements, nextElement_first solid notEnd, here, ok_bind]
  cases outcome <;> rfl

theorem elements_next {text : Bytes} {outcome : Except Fault α} {bound : Nat}
    (answers : Answers read bound text outcome) (begins : Begins text (· ≠ 0x5d)) (done : List α)
    {rest : Bytes} (stops : Stops rest) :
    elements read false done (bound + 1) (0x2c :: (text ++ rest)) =
      outcome >>= fun value => elements read false (value :: done) bound rest := by
  have here := answers rest stops
  obtain ⟨b, others, rfl, solid, notEnd⟩ := begins
  rw [List.cons_append] at here ⊢
  simp only [elements, nextElement_comma solid notEnd, here, ok_bind]
  cases outcome <;> rfl

variable {items : List β} {outcome : β → Except Fault α}

/-- The elements after the first, each behind its comma, up to the end or the first that is not
read. -/
theorem elements_rest
    (each : ∀ item ∈ items, ∀ bound ≥ least, Answers read bound (write item) (outcome item))
    (begins : ∀ item ∈ items, Begins (write item) (· ≠ 0x5d)) {bound : Nat}
    (more : items.length < bound) (enough : items ≠ [] → items.length + least ≤ bound)
    (done : List α) (rest : Bytes) :
    elements read false done bound ((items.map write).flatMap ([0x2c] ++ ·) ++ 0x5d :: rest) =
      (items.mapM outcome).map fun values => (done.reverse ++ values, rest) := by
  induction items generalizing bound done with
  | nil =>
    obtain _ | bound := bound
    · cases more
    · rw [List.mapM_nil, pure_eq_ok, map_ok, List.append_nil]
      rfl
  | cons item others ih =>
    simp only [List.forall_mem_cons] at each begins
    have room := enough (List.cons_ne_nil item others)
    rw [List.length_cons] at more room
    obtain _ | bound := bound
    · cases more
    have stops : Stops ((others.map write).flatMap ([0x2c] ++ ·) ++ 0x5d :: rest) := by
      cases others with
      | nil => exact stops_bracket rest
      | cons second others => exact stops_comma _
    rw [List.map_cons, List.flatMap_cons, List.singleton_append, List.cons_append, List.cons_append,
      List.append_assoc, elements_next (each.1 bound (by omega)) begins.1 done stops,
      List.mapM_cons]
    cases outcome item with
    | error fault => rfl
    | ok value =>
      rw [ok_bind, ok_bind, ih each.2 begins.2 (by omega) (fun _ => by omega)]
      cases others.mapM outcome with
      | error fault => rfl
      | ok values => simp

theorem answers_list
    (each : ∀ item ∈ items, ∀ bound ≥ least, Answers read bound (write item) (outcome item))
    (begins : ∀ item ∈ items, Begins (write item) (· ≠ 0x5d)) {bound : Nat}
    (more : items.length < bound) (enough : items ≠ [] → items.length + least ≤ bound) :
    Answers (list read) bound (array (items.map write)) (items.mapM outcome) := by
  intro rest _
  rw [array, bracketed, List.cons_append, List.cons_append, List.append_assoc,
    List.singleton_append, list, onFirst_cons _ _ rfl, if_pos rfl]
  cases items with
  | nil =>
    obtain _ | bound := bound
    · cases more
    · rfl
  | cons item others =>
    simp only [List.forall_mem_cons] at each begins
    have room := enough (List.cons_ne_nil item others)
    rw [List.length_cons] at more room
    obtain _ | bound := bound
    · cases more
    have stops : Stops ((others.map write).flatMap ([0x2c] ++ ·) ++ 0x5d :: rest) := by
      cases others with
      | nil => exact stops_bracket rest
      | cons second others => exact stops_comma _
    rw [List.map_cons, flatten_intersperse_cons, List.append_assoc,
      elements_first (each.1 bound (by omega)) begins.1 [] stops, List.mapM_cons]
    cases outcome item with
    | error fault => rfl
    | ok value =>
      rw [ok_bind, ok_bind, elements_rest each.2 begins.2 (by omega) (fun _ => by omega)]
      cases others.mapM outcome <;> rfl

end Lists

/-! ### Records -/

section Records

variable {σ : Type} {fields : List (Field σ)}

def member (part : String × Bytes) : Bytes := quoted part.1 ++ 0x3a :: part.2

/-- Members that are entered into a record one after the other, each under a field that is still
free. -/
inductive Enters (fields : List (Field σ)) : List (String × Bytes) → σ → σ → Prop
  | nil (record : σ) : Enters fields [] record record
  | cons {name : String} {text : Bytes} {parts : List (String × Bytes)} {record last : σ}
      {field : Field σ} {enter : σ → σ} (found : fields.find? (·.name == name) = some field)
      (free : field.taken record = false) (reads : ∀ bound, Reads field.read bound text enter)
      (others : Enters fields parts (enter record) last) :
      Enters fields ((name, text) :: parts) record last

theorem Enters.mapped {β : Type} {read : Reader β} {value : β} {taken : σ → Bool}
    {enter : β → σ → σ} {name label : String} {text : Bytes} {parts : List (String × Bytes)}
    {record last : σ}
    (found : fields.find? (·.name == name) = some ⟨label, taken, Json.mapped enter read⟩)
    (free : taken record = false) (reads : ∀ bound, Reads read bound text value)
    (others : Enters fields parts (enter value record) last) :
    Enters fields ((name, text) :: parts) record last :=
  .cons found free (fun bound => (reads bound).mapped enter) others

theorem colon_cons (rest : Bytes) : colon (0x3a :: rest) = .ok rest := rfl

theorem nextMember_first (rest : Bytes) : nextMember true (0x22 :: rest) = .ok (.part rest) := rfl

theorem nextMember_comma (rest : Bytes) :
    nextMember false (0x2c :: 0x22 :: rest) = .ok (.part rest) := rfl

theorem members_close (first : Bool) (record : σ) (bound : Nat) (rest : Bytes) :
    members fields first record (bound + 1) (0x7d :: rest) = .ok (record, rest) := rfl

theorem member_append (name : String) (text rest : Bytes) :
    member (name, text) ++ rest =
      0x22 :: ((Bytes.ofText name).flatMap escape ++ 0x22 :: 0x3a :: (text ++ rest)) := by
  rw [member, List.append_assoc, quoted_append, List.cons_append]

variable {name : String} {text : Bytes} {record : σ} {field : Field σ} {enter : σ → σ} {bound : Nat}
  {rest : Bytes}

theorem members_first (found : fields.find? (·.name == name) = some field)
    (free : field.taken record = false) (reads : Reads field.read bound text enter)
    (stops : Stops rest) :
    members fields true record (bound + 1) (member (name, text) ++ rest) =
      members fields false (enter record) bound rest := by
  rw [member_append]
  simp only [members, nextMember_first, stringRest_quoted, colon_cons, found, free,
    reads rest stops, ok_bind]
  rfl

theorem members_next (found : fields.find? (·.name == name) = some field)
    (free : field.taken record = false) (reads : Reads field.read bound text enter)
    (stops : Stops rest) :
    members fields false record (bound + 1) (0x2c :: (member (name, text) ++ rest)) =
      members fields false (enter record) bound rest := by
  rw [member_append]
  simp only [members, nextMember_comma, stringRest_quoted, colon_cons, found, free,
    reads rest stops, ok_bind]
  rfl

/-- The members after the first, each behind its comma, up to the end. -/
theorem members_rest {parts : List (String × Bytes)} {last : σ}
    (enters : Enters fields parts record last) (enough : parts.length < bound) (rest : Bytes) :
    members fields false record bound ((parts.map member).flatMap ([0x2c] ++ ·) ++ 0x7d :: rest) =
      .ok (last, rest) := by
  induction enters generalizing bound with
  | nil record =>
    obtain _ | bound := bound
    · cases enough
    · exact members_close false record bound rest
  | @cons name text parts record last field enter found free reads others ih =>
    rw [List.length_cons] at enough
    obtain _ | bound := bound
    · cases enough
    have stops : Stops ((parts.map member).flatMap ([0x2c] ++ ·) ++ 0x7d :: rest) := by
      cases parts with
      | nil => exact stops_brace rest
      | cons second parts => exact stops_comma _
    rw [List.map_cons, List.flatMap_cons, List.singleton_append, List.cons_append, List.cons_append,
      List.append_assoc, members_next found free (reads bound) stops, ih (by omega)]

/-- A record written as an object is read if its members are entered and what they make is accepted.
-/
theorem reads_record {α : Type} {parts : List (String × Bytes)} {empty last : σ}
    {finish : σ → Except Fault α} {value : α} (enters : Enters fields parts empty last)
    (finished : finish last = .ok value) (enough : parts.length < bound) :
    Reads (Json.record fields empty finish) bound (object parts) value := by
  intro rest _
  have filled : members fields true empty bound
      (((parts.map member).intersperse [0x2c]).flatten ++ 0x7d :: rest) = .ok (last, rest) := by
    cases enters with
    | nil =>
      obtain _ | bound := bound
      · cases enough
      · exact members_close true empty bound rest
    | @cons name text parts _ _ field enter found free reads others =>
      rw [List.length_cons] at enough
      obtain _ | bound := bound
      · cases enough
      have stops : Stops ((parts.map member).flatMap ([0x2c] ++ ·) ++ 0x7d :: rest) := by
        cases parts with
        | nil => exact stops_brace rest
        | cons second parts => exact stops_comma _
      rw [List.map_cons, flatten_intersperse_cons, List.append_assoc,
        members_first found free (reads bound) stops, members_rest others (by omega)]
  have bytes : object parts ++ rest =
      0x7b :: (((parts.map member).intersperse [0x2c]).flatten ++ 0x7d :: rest) := by
    rw [object, bracketed, List.cons_append, List.cons_append, List.append_assoc,
      List.singleton_append]
    rfl
  rw [bytes, Json.record, onFirst_cons _ _ rfl, if_pos rfl]
  simp only [filled, finished, ok_bind, pure_eq_ok]

end Records

/-! ### Lengths -/

theorem length_flatMap_comma {parts : List Bytes} {least : Nat}
    (each : ∀ part ∈ parts, least ≤ part.length) :
    least * parts.length ≤ (parts.flatMap ([0x2c] ++ ·)).length := by
  induction parts with
  | nil => exact Nat.zero_le _
  | cons part others ih =>
    simp only [List.forall_mem_cons] at each
    have rest := ih each.2
    rw [List.flatMap_cons, List.length_append, List.length_append, List.length_cons,
      List.length_singleton, Nat.mul_succ]
    omega

theorem length_array {parts : List Bytes} {least : Nat}
    (each : ∀ part ∈ parts, least ≤ part.length) :
    least * parts.length + 2 ≤ (array parts).length := by
  rw [array, bracketed, List.length_append, List.length_cons, List.length_singleton]
  cases parts with
  | nil => exact Nat.le_refl _
  | cons part others =>
    simp only [List.forall_mem_cons] at each
    have rest := length_flatMap_comma each.2
    rw [flatten_intersperse_cons, List.length_append, List.length_cons, Nat.mul_succ]
    omega

theorem length_object {parts : List (String × Bytes)} (nonempty : parts ≠ []) :
    5 ≤ (object parts).length := by
  obtain _ | ⟨⟨name, text⟩, others⟩ := parts
  · exact absurd rfl nonempty
  rw [object, bracketed, List.length_append, List.length_cons, List.length_singleton, List.map_cons,
    flatten_intersperse_cons, List.length_append, List.length_append, quoted, List.length_cons,
    List.length_append, List.length_cons, List.length_cons]
  omega

theorem document_of_answers {read : Reader α} {text : Bytes} {outcome : Except Fault α}
    (answers : Answers read (text.length + 1) text outcome) : document read text = outcome := by
  have whole := answers [] stops_nil
  rw [List.append_nil] at whole
  rw [document, whole]
  cases outcome <;> rfl

/-- A document that is a list: its length bounds what the elements need. -/
theorem document_list {read : Reader α} {write : β → Bytes} {items : List β}
    {outcome : β → Except Fault α} {least : Nat} (positive : 0 < least)
    (each : ∀ item ∈ items, ∀ bound ≥ least, Answers read bound (write item) (outcome item))
    (begins : ∀ item ∈ items, Begins (write item) (· ≠ 0x5d))
    (long : ∀ item ∈ items, least ≤ (write item).length) :
    document (list read) (array (items.map write)) = items.mapM outcome := by
  have parts : ∀ part ∈ items.map write, least ≤ part.length := by
    intro part member
    obtain ⟨item, inside, rfl⟩ := List.mem_map.1 member
    exact long item inside
  have whole := length_array parts
  rw [List.length_map] at whole
  have more := Nat.le_mul_of_pos_left items.length positive
  refine document_of_answers (answers_list each begins (by omega) ?_)
  intro nonempty
  have some := List.length_pos_iff.2 nonempty
  obtain ⟨n, count⟩ := Nat.exists_eq_succ_of_ne_zero (Nat.ne_of_gt some)
  obtain ⟨k, rfl⟩ := Nat.exists_eq_succ_of_ne_zero (Nat.ne_of_gt positive)
  rw [count] at whole ⊢
  rw [Nat.succ_mul_succ] at whole
  omega

end Telemetry.Json
