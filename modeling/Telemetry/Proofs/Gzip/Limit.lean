import Telemetry.Proofs.Gzip.Pack

/-!
Unpacking within a limit. Main statements: what unpacks at all comes out the same within a limit
that it does not exceed, and what holds more than the limit is too large, be it whole or not; and in
whatever parts a member is read, reading one byte past the limit tells as much, if there is such a
number.
-/
namespace Telemetry.Gzip

variable {input output : Bytes} {limit : Nat}

theorem output_of_content {run : Run} (content : run.content = .ok output) :
    run.output = output ∧ run.delivered = output.length := by
  obtain ⟨written, ending⟩ := run
  cases ending with
  | error halt => cases content
  | ok rest =>
    simp only [Run.content] at content
    split at content
    · cases content
      exact ⟨rfl, rfl⟩
    · cases content

theorem unpack_eq_ok (unpacked : unpack input = .ok output) :
    ∃ data, skipHeader input = some data ∧ (inflate data).content = .ok output := by
  unfold unpack at unpacked
  split at unpacked
  case h_1 data header => exact ⟨data, header, unpacked⟩
  case h_2 => cases unpacked

theorem ne_nil_of_unpack (unpacked : unpack input = .ok output) : input ≠ [] := by
  rintro rfl
  cases unpacked

/-- How many bytes come out of an input, until it ends or turns out to be corrupt. -/
def inflatedLength (input : Bytes) : Nat :=
  match skipHeader input with
  | some data => (inflate data).delivered
  | none => 0

theorem inflatedLength_of_unpack (unpacked : unpack input = .ok output) :
    inflatedLength input = output.length := by
  obtain ⟨data, header, content⟩ := unpack_eq_ok unpacked
  simp only [inflatedLength, header, (output_of_content content).2]

/-- The limit must leave room for one byte more to be asked for. -/
theorem unpackWithin_of_exceeds (exceeds : limit < inflatedLength input)
    (counts : limit < 0xffffffffffffffff) :
    unpackWithin limit input = .error (.tooLarge limit) := by
  have small : ¬ 0xffffffffffffffff ≤ limit := Nat.not_le.2 counts
  rw [inflatedLength] at exceeds
  rw [unpackWithin, if_neg small]
  cases header : skipHeader input with
  | none =>
    rw [header] at exceeds
    exact absurd exceeds (Nat.not_lt_zero limit)
  | some data =>
    rw [header] at exceeds
    exact if_pos exceeds

theorem unpackWithin_of_unpack (unpacked : unpack input = .ok output) (fits : output.length ≤ limit)
    (counts : limit < 0xffffffffffffffff) : unpackWithin limit input = .ok output := by
  have small : ¬ 0xffffffffffffffff ≤ limit := Nat.not_le.2 counts
  obtain ⟨data, header, content⟩ := unpack_eq_ok unpacked
  rw [unpackWithin, if_neg small, header]
  simp only [(output_of_content content).2, content, if_neg (Nat.not_lt.2 fits)]

/-! ### Reading part by part -/

/-- A member as it is read: the bytes that can still be had, and what the read after the last of
them answers. -/
structure Source where
  ahead : Bytes
  ending : Except Fault Unit

namespace Source

/-- The member that an input begins with. The trailer is looked at when the data have come to their
end. -/
def ofInput (input : Bytes) : Source :=
  match skipHeader input with
  | none => ⟨[], .error .corrupt⟩
  | some data =>
    let run := inflate data
    ⟨run.output.take run.delivered, run.content.map fun _ => ()⟩

/-- Reads one part after another, up to the end or for so many bytes. Once these have been read the
source is not asked again, so that its ending is not known. -/
inductive Reads : Option Nat → Source → Except Fault Bytes → Prop
  | enough (source : Source) : Reads (some 0) source (.ok [])
  | ended {left : Option Nat} (more : left ≠ some 0) (ending : Except Fault Unit) :
      Reads left ⟨[], ending⟩ (ending.map fun _ => [])
  | part {left : Option Nat} {part ahead : Bytes} {ending : Except Fault Unit}
      {result : Except Fault Bytes} (nonempty : part ≠ [])
      (room : ∀ n, left = some n → part.length ≤ n)
      (later : Reads (left.map (· - part.length)) ⟨ahead, ending⟩ result) :
      Reads left ⟨part ++ ahead, ending⟩ (result.map (part ++ ·))

def all (source : Source) : Option Nat → Except Fault Bytes
  | none => source.ending.map fun _ => source.ahead
  | some n =>
    if n ≤ source.ahead.length then .ok (source.ahead.take n)
    else source.ending.map fun _ => source.ahead

variable {source : Source} {left : Option Nat} {result : Except Fault Bytes}

theorem all_of_ended (more : left ≠ some 0) (ending : Except Fault Unit) :
    all ⟨[], ending⟩ left = ending.map fun _ => [] := by
  cases left with
  | none => rfl
  | some n =>
    have positive : ¬ n ≤ 0 := by
      intro none
      exact more (congrArg some (Nat.le_zero.1 none))
    exact if_neg positive

theorem all_of_part {part ahead : Bytes} (room : ∀ n, left = some n → part.length ≤ n)
    (ending : Except Fault Unit) :
    all ⟨part ++ ahead, ending⟩ left =
      (all ⟨ahead, ending⟩ (left.map (· - part.length))).map (part ++ ·) := by
  have joined :
      (ending.map fun _ => part ++ ahead) = (ending.map fun _ => ahead).map (part ++ ·) := by
    cases ending <;> rfl
  cases left with
  | none => exact joined
  | some n =>
    have fits := room n rfl
    have reached : n ≤ (part ++ ahead).length ↔ n - part.length ≤ ahead.length := by
      rw [List.length_append]
      omega
    simp only [all, Option.map_some]
    by_cases within : n - part.length ≤ ahead.length
    · rw [if_pos (reached.2 within), if_pos within, List.take_append, List.take_of_length_le fits]
      rfl
    · rw [if_neg (mt reached.1 within), if_neg within]
      exact joined

theorem reads_all (source : Source) (left : Option Nat) : Reads left source (source.all left) := by
  obtain ⟨ahead, ending⟩ := source
  induction ahead generalizing left with
  | nil =>
    by_cases full : left = some 0
    · subst full
      exact .enough _
    · rw [all_of_ended full]
      exact .ended full ending
  | cons b rest ih =>
    by_cases full : left = some 0
    · subst full
      exact .enough _
    · have room : ∀ n, left = some n → [b].length ≤ n := by
        rintro n rfl
        exact Nat.one_le_iff_ne_zero.2 fun none => full (congrArg some none)
      have split : all ⟨b :: rest, ending⟩ left = _ := all_of_part room ending
      rw [split]
      exact .part (List.cons_ne_nil b []) room (ih _)

/-- The parts in which the bytes come make no difference. -/
theorem reads_iff : Reads left source result ↔ source.all left = result := by
  constructor
  · intro reads
    induction reads with
    | enough source => simp [all]
    | ended more ending => exact all_of_ended more ending
    | part nonempty room later ih => rw [all_of_part room, ih]
  · rintro rfl
    exact reads_all source left

theorem unpack_eq_all (input : Bytes) : unpack input = (ofInput input).all none := by
  unfold unpack ofInput
  cases skipHeader input with
  | none => rfl
  | some data =>
    cases content : (inflate data).content with
    | error fault => simp only [all, content, map_error]
    | ok output =>
      obtain ⟨written, delivered⟩ := output_of_content content
      simp only [all, content, map_ok, written, delivered, List.take_length]

end Source

def capped (limit : Nat) (read : Except Fault Bytes) : Except Fault Bytes := do
  let output ← read
  if limit < output.length then throw (.tooLarge limit) else return output

theorem capped_ok {output : Bytes} (fits : output.length ≤ limit) :
    capped limit (.ok output) = .ok output :=
  if_neg (Nat.not_lt.2 fits)

theorem capped_of_exceeds {output : Bytes} (exceeds : limit < output.length) :
    capped limit (.ok output) = .error (.tooLarge limit) :=
  if_pos exceeds

theorem delivered_le (run : Run) : run.delivered ≤ run.output.length := by
  unfold Run.delivered
  split
  · exact Nat.sub_le ..
  · exact Nat.le_refl _

/-- One byte past the limit is enough to tell what unpacking comes to. -/
theorem unpackWithin_eq_capped (counts : limit < 0xffffffffffffffff) (input : Bytes) :
    unpackWithin limit input = capped limit ((Source.ofInput input).all (some (limit + 1))) := by
  rw [unpackWithin, if_neg (Nat.not_le.2 counts), Source.ofInput]
  cases skipHeader input with
  | none => rfl
  | some data =>
    have length := List.length_take_of_le (delivered_le (inflate data))
    by_cases exceeds : limit < (inflate data).delivered
    · have longer :
          limit <
            (((inflate data).output.take (inflate data).delivered).take (limit + 1)).length := by
        rw [List.length_take, length]
        omega
      simp only [Source.all, length, if_pos exceeds, if_pos (Nat.succ_le_of_lt exceeds),
        capped_of_exceeds longer]
    · have short : ¬ limit + 1 ≤ (inflate data).delivered := by omega
      simp only [Source.all, length, if_neg exceeds, if_neg short]
      cases content : (inflate data).content with
      | error fault => rfl
      | ok output =>
        obtain ⟨written, delivered⟩ := output_of_content content
        have fits : output.length ≤ limit := by omega
        simp only [map_ok, written, delivered, List.take_length, capped_ok fits]

/-- All that inflation writes of an input, be it delivered or not. -/
def inflated (input : Bytes) : Bytes :=
  match skipHeader input with
  | some data => (inflate data).output
  | none => []

structure Bounds (limit : Nat) (input : Bytes) : Prop where
  /-- Whatever the parts are in which one byte past the limit is read, they tell the answer. -/
  reading : ∀ answer, unpackWithin limit input = answer ↔
    ∃ read, (Source.ofInput input).Reads (some (limit + 1)) read ∧ capped limit read = answer
  whole : ∀ answer, unpack input = answer ↔ (Source.ofInput input).Reads none answer
  ok : ∀ output, unpackWithin limit input = .ok output ↔ unpack input = .ok output ∧
    output.length ≤ limit
  tooLarge : ∀ output, unpack input = .ok output → limit < output.length →
    unpackWithin limit input = .error (.tooLarge limit)
  corrupt : ∀ fault, unpack input = .error fault → unpackWithin limit input = .error .corrupt ∨
    unpackWithin limit input = .error (.tooLarge limit) ∧ limit < (inflated input).length
  /-- The trailer of data that take up the whole limit is looked at. -/
  trailer : ∀ data rest, skipHeader input = some data → (inflate data).ending = .ok rest →
    (inflated input).length = limit → trailerMatches (inflated input) rest = false →
      unpackWithin limit input = .error .corrupt

theorem unpackWithin_cases (counts : limit < 0xffffffffffffffff) (input : Bytes) :
    limit < inflatedLength input ∧ unpackWithin limit input = .error (.tooLarge limit) ∨
      inflatedLength input ≤ limit ∧ unpackWithin limit input = unpack input := by
  by_cases exceeds : limit < inflatedLength input
  · exact .inl ⟨exceeds, unpackWithin_of_exceeds exceeds counts⟩
  · refine .inr ⟨Nat.not_lt.1 exceeds, ?_⟩
    have small : ¬ 0xffffffffffffffff ≤ limit := Nat.not_le.2 counts
    rw [inflatedLength] at exceeds
    rw [unpackWithin, if_neg small, unpack]
    cases header : skipHeader input with
    | none => rfl
    | some data =>
      rw [header] at exceeds
      exact if_neg exceeds

theorem inflatedLength_le (input : Bytes) : inflatedLength input ≤ (inflated input).length := by
  unfold inflatedLength inflated
  split
  · exact delivered_le _
  · exact Nat.le_refl 0

theorem eq_corrupt_of_unpack {fault : Fault} (failed : unpack input = .error fault) :
    fault = .corrupt := by
  unfold unpack Run.content at failed
  split at failed
  · split at failed
    · split at failed <;> cases failed
      rfl
    · cases failed
      rfl
  · cases failed
    rfl

/-- A limit that leaves room for one byte more than it makes no difference to what does not exceed
it, and what exceeds it is refused. -/
theorem unpackWithin_bounds (counts : limit < 0xffffffffffffffff) (input : Bytes) :
    Bounds limit input where
  reading answer := by
    simp only [unpackWithin_eq_capped counts, Source.reads_iff, exists_eq_left']
  whole answer := by
    rw [Source.reads_iff, Source.unpack_eq_all]
  ok output := by
    constructor
    · intro unpacked
      rcases unpackWithin_cases counts input with ⟨-, refused⟩ | ⟨fits, same⟩
      · rw [refused] at unpacked
        cases unpacked
      · rw [same] at unpacked
        rw [inflatedLength_of_unpack unpacked] at fits
        exact ⟨unpacked, fits⟩
    · rintro ⟨unpacked, fits⟩
      exact unpackWithin_of_unpack unpacked fits counts
  tooLarge output unpacked exceeds := by
    rw [← inflatedLength_of_unpack unpacked] at exceeds
    exact unpackWithin_of_exceeds exceeds counts
  corrupt fault failed := by
    rcases unpackWithin_cases counts input with ⟨exceeds, refused⟩ | ⟨-, same⟩
    · exact .inr ⟨refused, Nat.lt_of_lt_of_le exceeds (inflatedLength_le input)⟩
    · rw [same, failed, eq_corrupt_of_unpack failed]
      exact .inl rfl
  trailer data rest header ending length wrong := by
    simp only [inflated, header] at length wrong
    have refused : unpack input = .error .corrupt := by
      simp only [unpack, header, Run.content, ending, wrong, Bool.false_eq_true, if_false]
    -- The limit is not exceeded, so that the trailer is read and found wrong.
    have delivered : inflatedLength input = limit := by
      simp only [inflatedLength, header, Run.delivered, ending, length]
    rcases unpackWithin_cases counts input with ⟨exceeds, -⟩ | ⟨-, same⟩
    · exact absurd delivered (Nat.ne_of_gt exceeds)
    · rw [same, refused]

/-- The largest limit there is room for, and a member that just fills a small one. -/
theorem unpackWithin_bounds_letter :
    (0xfffffffffffffffe < 0xffffffffffffffff ∧
      unpackWithin 0xfffffffffffffffe (pack [0x61]) = .ok [0x61]) ∧
      1 < 0xffffffffffffffff ∧ unpackWithin 1 (pack [0x61]) = .ok [0x61] ∧
      0 < 0xffffffffffffffff ∧ unpackWithin 0 (pack [0x61]) = .error (.tooLarge 0) := by
  have packed := unpack_pack [0x61]
  have vast : 0xfffffffffffffffe < 0xffffffffffffffff := by decide
  have one : 1 < 0xffffffffffffffff := by decide
  have none : 0 < 0xffffffffffffffff := by decide
  refine ⟨⟨vast, ?_⟩, one, ?_, none, ?_⟩
  · exact ((unpackWithin_bounds vast _).ok _).2 ⟨packed, by decide⟩
  · exact ((unpackWithin_bounds one _).ok _).2 ⟨packed, by decide⟩
  · exact (unpackWithin_bounds none _).tooLarge _ packed (by decide)

/-- With the largest limit of 64 bits the program stops before anything is read. -/
theorem unpackWithin_largest :
    unpack (pack [0x61]) = .ok [0x61] ∧ [0x61].length ≤ 0xffffffffffffffff ∧
      unpackWithin 0xffffffffffffffff (pack [0x61]) = .error .overflow :=
  ⟨unpack_pack [0x61], by decide, rfl⟩

end Telemetry.Gzip
