import Telemetry.Net.Uri
import Telemetry.Proofs.Files
import Telemetry.Proofs.Http.Message
import Telemetry.Proofs.Metric.Text
import Telemetry.Server.Route
import Telemetry.Url.Basic

namespace Telemetry

namespace Percent

variable {plain : UInt8 → Bool} {bytes : Bytes}

theorem encode_of_plain (all : ∀ b ∈ bytes, plain b = true) : encode plain bytes = bytes := by
  induction bytes with
  | nil => rfl
  | cons b rest ih =>
    rw [List.forall_mem_cons] at all
    have later := ih all.2
    unfold encode at later ⊢
    rw [List.flatMap_cons, if_pos all.1, later]
    rfl

/-- What holds of all that stays as it is, of the mark of an escape and of its digits, holds of all
that is written. -/
theorem forall_encode {p : UInt8 → Prop} (kept : ∀ b, plain b = true → p b) (percent : p 0x25)
    (digits : ∀ n < 16, p (upperDigit n)) (bytes : Bytes) : ∀ b ∈ encode plain bytes, p b := by
  intro b member
  obtain ⟨source, -, written⟩ := List.mem_flatMap.1 member
  split at written
  case isTrue stays =>
    rw [List.mem_singleton.1 written]
    exact kept source stays
  case isFalse =>
    have small := source.toNat_lt
    simp only [List.mem_cons, List.not_mem_nil, or_false] at written
    rcases written with rfl | rfl | rfl
    · exact percent
    · exact digits _ (by omega)
    · exact digits _ (by omega)

end Percent

namespace Url

def IsSegmentChar (c : Char) : Prop := c.toNat < 0x7f ∧ Net.Uri.isPathChar c = true ∧ c ≠ '/'

instance (c : Char) : Decidable (IsSegmentChar c) := inferInstanceAs (Decidable (_ ∧ _))

/-- A text that can be a segment of a path and stands for a text there. -/
structure Escapes (raw text : String) : Prop where
  inside : ∀ c ∈ raw.toList, IsSegmentChar c
  decoded : (Percent.decode (Bytes.ofText raw)).toText? = some text

structure StaysInside (plain : UInt8 → Bool) : Prop where
  inside : ∀ b, plain b = true → IsSegmentChar (Char.ofNat b.toNat)
  percent : plain 0x25 = false

theorem toNat_ofNat : ∀ n < 0x100, (Char.ofNat n).toNat = n := by decide +kernel

theorem isSegmentChar_escape :
    IsSegmentChar '%' ∧ ∀ n < 16, IsSegmentChar (Char.ofNat (Percent.upperDigit n).toNat) := by
  decide

variable {plain : UInt8 → Bool} {text raw : String}

theorem inside_encode (stays : StaysInside plain) (text : String) :
    ∀ c ∈ (encode plain text).toList, IsSegmentChar c := by
  intro c member
  rw [encode, String.toList_ofList] at member
  obtain ⟨b, written, rfl⟩ := List.mem_map.1 member
  exact Percent.forall_encode (p := fun b => IsSegmentChar (Char.ofNat b.toNat)) stays.inside
    isSegmentChar_escape.1
    isSegmentChar_escape.2 _ b written

theorem ofText_encode (ascii : ∀ b, plain b = true → b.toNat < 0x80) (text : String) :
    Bytes.ofText (encode plain text) = Percent.encode plain (Bytes.ofText text) := by
  have small := Percent.forall_encode (p := fun b => b.toNat < 0x80) ascii (by decide) (by decide)
    (Bytes.ofText text)
  rw [encode, Bytes.ofText_ascii, Bytes.ofAscii, List.map_map]
  · have each : ∀ b ∈ Percent.encode plain (Bytes.ofText text), (Char.ofNat b.toNat).toNat.toUInt8 =
        id b := by
      intro b written
      rw [toNat_ofNat _ b.toNat_lt]
      exact UInt8.ofNat_toNat
    exact (List.map_congr_left each).trans (List.map_id _)
  · intro c member
    obtain ⟨b, written, rfl⟩ := List.mem_map.1 member
    rw [toNat_ofNat _ b.toNat_lt]
    exact small b written

theorem toNat_lt_of_stays (stays : StaysInside plain) (b : UInt8) (kept : plain b = true) :
    b.toNat < 0x80 := by
  have range := (stays.inside b kept).1
  rw [toNat_ofNat b.toNat b.toNat_lt] at range
  omega

/-- A text that is encoded for a segment stands for itself. -/
theorem escapes_encode (stays : StaysInside plain) (text : String) :
    Escapes (encode plain text) text where
  inside := inside_encode stays text
  decoded := by
    rw [ofText_encode (toNat_lt_of_stays stays), Percent.decode_encode stays.percent,
      Bytes.toText?_ofText]

theorem encode_of_plain (all : ∀ c ∈ text.toList, c.toNat < 0x80 ∧ plain c.toNat.toUInt8 = true) :
    encode plain text = text := by
  have bytes : Bytes.ofText text = Bytes.ofAscii text.toList := by
    rw [← Bytes.ofText_ascii fun c member => (all c member).1, String.ofList_toList]
  have kept : Percent.encode plain (Bytes.ofAscii text.toList) = Bytes.ofAscii text.toList := by
    apply Percent.encode_of_plain
    intro b member
    obtain ⟨c, inside, rfl⟩ := List.mem_map.1 member
    exact (all c inside).2
  have each : ∀ c ∈ text.toList, Char.ofNat c.toNat.toUInt8.toNat = id c := by
    intro c member
    have small := (all c member).1
    rw [Nat.toUInt8, UInt8.toNat_ofNat', Nat.mod_eq_of_lt (by omega)]
    exact Char.ofNat_toNat c
  have back : (Bytes.ofAscii text.toList).map (fun b => Char.ofNat b.toNat) = text.toList := by
    rw [Bytes.ofAscii, List.map_map]
    exact (List.map_congr_left each).trans (List.map_id _)
  rw [encode, bytes, kept, back, String.ofList_toList]

theorem plainSegment_inside : ∀ n < 0x100, plainSegment n.toUInt8 = true →
    IsSegmentChar (Char.ofNat n) := by
  decide +kernel

theorem staysInside_plainSegment : StaysInside plainSegment where
  inside := by
    intro b kept
    apply plainSegment_inside b.toNat b.toNat_lt
    rw [Nat.toUInt8, UInt8.ofNat_toNat]
    exact kept
  percent := by decide +kernel

theorem escapes_of_same (same : encode plainSegment text = text) : Escapes text text := by
  have escapes := escapes_encode staysInside_plainSegment text
  rwa [same] at escapes

theorem escapes_empty : Escapes "" "" := escapes_of_same (by decide)

theorem escapes_update : Escapes "update" "update" := escapes_of_same (by decide +kernel)

theorem escapes_kind (kind : Kind) : Escapes kind.name kind.name := by
  apply escapes_of_same
  cases kind <;> decide +kernel

/-! ### Numbers -/

theorem isPositional_plain : ∀ n < 0x80, Decimal.IsPositional (Char.ofNat n) →
    plainSegment n.toUInt8 = true := by
  unfold Decimal.IsPositional
  decide +kernel

theorem toNat_of_isPositional {c : Char} (positional : Decimal.IsPositional c) :
    c.toNat < 0x80 := by
  rcases positional with digit | rfl | rfl
  · have range := Json.toNat_of_isDigit digit
    omega
  · decide
  · decide

theorem encode_positional (positional : ∀ c ∈ text.toList, Decimal.IsPositional c) :
    encode plainSegment text = text := by
  apply encode_of_plain
  intro c member
  have small := toNat_of_isPositional (positional c member)
  refine ⟨small, isPositional_plain c.toNat small ?_⟩
  rw [Char.ofNat_toNat]
  exact positional c member

theorem escapes_positional (positional : ∀ c ∈ text.toList, Decimal.IsPositional c) :
    Escapes text text :=
  escapes_of_same (encode_positional positional)

theorem Escapes.decode (escapes : Escapes raw text) (name : String) :
    Route.decode name raw = .ok text := by
  rw [Route.decode, escapes.decoded]

/-! ### Paths -/

theorem pathText_cons (first : String) (rest : List String) :
    pathText (.segments (first :: rest)) = "/" ++ first ++ pathText (.segments rest) := by
  simp [pathText, String.join_cons]

theorem pathText_nil : pathText (.segments []) = "" := rfl

/-- A path of segments without slashes is cut into them, behind the empty text ahead of the first
slash. -/
theorem split_pathText {list : List String} (solid : ∀ segment ∈ list, '/' ∉ segment.toList) :
    Text.split '/' (pathText (.segments list)) = "" :: list := by
  have slash : "/" = String.singleton '/' := rfl
  have behind : ∀ first, '/' ∉ first.toList →
      Text.split '/' (first ++ pathText (.segments list)) = first :: list := by
    induction list with
    | nil =>
      intro first absent
      rw [pathText_nil, String.append_empty, Text.split_of_absent absent]
    | cons next rest ih =>
      intro first absent
      rw [List.forall_mem_cons] at solid
      rw [pathText_cons, String.append_assoc, ← String.append_assoc, slash,
        Text.split_append absent, ih solid.2 next solid.1]
  have whole := behind "" nofun
  rwa [String.empty_append] at whole

theorem forall_pathText {p : Char → Prop} (slash : p '/') {list : List String}
    (inside : ∀ segment ∈ list, ∀ c ∈ segment.toList, p c) :
    ∀ c ∈ (pathText (.segments list)).toList, p c := by
  induction list with
  | nil => exact nofun
  | cons first rest ih =>
    rw [List.forall_mem_cons] at inside
    rw [pathText_cons, String.toList_append, String.toList_append]
    refine List.forall_mem_append.2 ⟨List.forall_mem_append.2 ⟨?_, inside.1⟩, ih inside.2⟩
    exact List.forall_mem_singleton.2 slash

theorem toList_pathText_cons (first : String) (rest : List String) :
    (pathText (.segments (first :: rest))).toList =
      '/' :: (first.toList ++ (pathText (.segments rest)).toList) := by
  rw [pathText_cons, String.toList_append, String.toList_append]
  rfl

theorem head?_pathText (list : List String) :
    ∀ c ∈ (pathText (.segments list)).toList.head?, c = '/' := by
  cases list with
  | nil => exact nofun
  | cons first rest =>
    rw [toList_pathText_cons]
    rintro c ⟨⟩
    rfl

theorem split_path {request : Request} {first : String} {others : List String} {rest : List Char}
    (target : request.target.toList = (pathText (.segments (first :: others))).toList ++ rest)
    (stops : rest.takeWhile (fun c => c != '?' && c != '#') = [])
    (inside : ∀ segment ∈ first :: others, ∀ c ∈ segment.toList, IsSegmentChar c) :
    Text.split '/' request.path = "" :: first :: others := by
  have solid : ∀ segment ∈ first :: others, '/' ∉ segment.toList :=
    fun segment member slash => (inside segment member '/' slash).2.2 rfl
  have unmarked : ∀ segment ∈ first :: others, ∀ c ∈ segment.toList, (c != '?' && c != '#') =
      true := by
    intro segment member c here
    have path := (inside segment member c here).2.1
    simp only [Net.Uri.isPathChar, Bool.and_eq_true, bne_iff_ne] at path
    simp [path]
  have all := forall_pathText (p := fun c => (c != '?' && c != '#') = true) rfl unmarked
  rw [toList_pathText_cons] at target all
  rw [Request.path_eq target (List.forall_mem_cons.1 all).2 stops, ← toList_pathText_cons,
    String.ofList_toList, split_pathText solid]

end Url
end Telemetry
