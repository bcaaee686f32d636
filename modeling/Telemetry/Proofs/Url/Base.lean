import Telemetry.Proofs.Span
import Telemetry.Proofs.Url.Segment
import Telemetry.Url.Parse

/-!
Bases of URLs and the segments that are added to them. Main statements: a base that is a host and a
port has the root for its path, and a text that is added there is a segment which stands for the
text without its tabs and line breaks, unless that is a dot or two.
-/
namespace Telemetry.Url

/-! ### Bases -/

def IsPlaceChar (c : Char) : Prop :=
  0x20 < c.toNat ∧ c ≠ '/' ∧ c ≠ '\\' ∧ c ≠ '?' ∧ c ≠ '#' ∧ c ≠ '@'

instance (c : Char) : Decidable (IsPlaceChar c) := inferInstanceAs (Decidable (_ ∧ _))

theorem cutAt_of_absent {mark : Char} {text : List Char} (absent : mark ∉ text) :
    cutAt mark text = (text, none) := by
  have all : ∀ c ∈ text, (c != mark) = true := by
    intro c member
    rw [bne_iff_ne]
    rintro rfl
    exact absent member
  rw [cutAt, (span_of_all all).2]

theorem trim_of_visible {text : List Char} (visible : ∀ c ∈ text, 0x20 < c.toNat) :
    ((text.dropWhile isPadding).reverse.dropWhile isPadding).reverse = text := by
  have unpadded : ∀ c ∈ text, isPadding c = false := by
    intro c member
    exact decide_eq_false (Nat.not_le.2 (visible c member))
  have front := span_of_stop fun c first => unpadded c (List.mem_of_mem_head? first)
  have back := @span_of_stop _ _ text.reverse fun c first =>
    unpadded c (List.mem_reverse.1 (List.mem_of_mem_head? first))
  rw [front.2, back.2, List.reverse_reverse]

theorem isIgnored_of_visible {c : Char} (visible : 0x20 < c.toNat) : isIgnored c = false := by
  have other : c ≠ '\t' ∧ c ≠ '\n' ∧ c ≠ '\r' := by
    refine ⟨?_, ?_, ?_⟩ <;> rintro rfl <;> exact absurd visible (by decide)
  simp [isIgnored, other]

theorem filter_isIgnored {text : List Char} (solid : ∀ c ∈ text, isIgnored c = false) :
    text.filter (!isIgnored ·) = text := by
  rw [List.filter_eq_self]
  intro c member
  rw [solid c member]
  rfl

/-- The address of a server by its host and its port, with or without a slash behind them. -/
def addressText (place slash : List Char) : String :=
  String.ofList ('h' :: 't' :: 't' :: 'p' :: ':' :: '/' :: '/' :: (place ++ slash))

variable {place slash : List Char}

theorem hierarchy?_address (solid : ∀ c ∈ place, IsPlaceChar c) (ends : slash = [] ∨ slash = ['/'])
    {authority : Option Authority} {path : UrlPath}
    (read : hierarchy? "http" ('/' :: '/' :: (place ++ slash)) = some (authority, path)) :
    authority.isSome = true ∧ path = .segments [""] := by
  have host : ∀ c ∈ place, (!isSlash c) = true := by
    intro c member
    obtain ⟨-, noSlash, noBackslash, -⟩ := solid c member
    simp [isSlash, noSlash, noBackslash]
  have stops : ∀ c ∈ slash.head?, (!isSlash c) = false := by
    rcases ends with rfl | rfl
    · exact nofun
    · rintro c ⟨⟩
      rfl
  obtain ⟨before, behind⟩ := span_append host stops
  have nothing : slash.drop 1 = [] := by rcases ends with rfl | rfl <;> rfl
  have rest :
    ('/' :: '/' :: (place ++ slash)).dropWhile isSlash = (place ++ slash).dropWhile isSlash := rfl
  rw [hierarchy?] at read
  simp only [standardPort?, rest] at read
  cases place with
  | nil =>
    have gone : ([] ++ slash).dropWhile isSlash = [] := by rcases ends with rfl | rfl <;> rfl
    rw [gone] at read
    cases read
  | cons first others =>
    have here : ((first :: others) ++ slash).dropWhile isSlash = (first :: others) ++ slash := by
      apply List.dropWhile_cons_of_neg
      have outside := host first (List.mem_cons_self ..)
      simpa using outside
    rw [here, before, behind, nothing] at read
    simp only [Option.bind_eq_bind, Option.bind_eq_some_iff] at read
    obtain ⟨found, -, same⟩ := read
    cases same
    exact ⟨rfl, rfl⟩

theorem scheme?_http (rest : List Char) :
    scheme? ('h' :: 't' :: 't' :: 'p' :: ':' :: rest) = some ("http", rest) := by
  have letters : ∀ c ∈ ['h', 't', 't', 'p'], isSchemeChar c = true := List.all_eq_true.1 rfl
  have colon : ∀ c ∈ (':' :: rest).head?, isSchemeChar c = false := by
    rintro c ⟨⟩
    decide
  obtain ⟨name, behind⟩ := span_append letters colon
  rw [List.cons_append, List.cons_append, List.cons_append, List.cons_append,
    List.nil_append] at name behind
  rw [scheme?, name, behind]
  rfl

theorem parse_address (solid : ∀ c ∈ place, IsPlaceChar c) (ends : slash = [] ∨ slash = ['/'])
    {url : Url} (parsed : parse (addressText place slash) = some url) :
    url.scheme = "http" ∧ url.authority.isSome = true ∧ url.path = .segments [""] ∧
    url.query = none ∧
      url.fragment = none := by
  have prefixed : ∀ c ∈ ['h', 't', 't', 'p', ':', '/', '/'], 0x20 < c.toNat ∧ c ≠ '#' ∧
    c ≠ '?' := by simp
  have ending : ∀ c ∈ slash, 0x20 < c.toNat ∧ c ≠ '#' ∧ c ≠ '?' := by
    rcases ends with rfl | rfl
    · exact nofun
    · exact List.forall_mem_singleton.2 (by decide)
  have visible : ∀ c ∈ 'h' :: 't' :: 't' :: 'p' :: ':' :: '/' :: '/' :: (place ++ slash),
      0x20 < c.toNat ∧ c ≠ '#' ∧ c ≠ '?' := by
    apply List.forall_mem_append.2 ⟨prefixed, List.forall_mem_append.2 ⟨_, ending⟩⟩
    intro c member
    obtain ⟨high, -, -, noQuery, noFragment, -⟩ := solid c member
    exact ⟨high, noFragment, noQuery⟩
  generalize whole : 'h' :: 't' :: 't' :: 'p' :: ':' :: '/' :: '/' :: (place ++ slash) =
    address at visible
  have trimmed := trim_of_visible fun c member => (visible c member).1
  have kept := filter_isIgnored fun c member => isIgnored_of_visible (visible c member).1
  have inside : ∀ c ∈ '/' :: '/' :: (place ++ slash), c ∈ address := by
    intro c member
    rw [← whole]
    exact List.mem_append_right ['h', 't', 't', 'p', ':'] member
  have noFragment : '#' ∉ '/' :: '/' :: (place ++ slash) :=
    fun member => (visible _ (inside _ member)).2.1 rfl
  have noQuery : '?' ∉ '/' :: '/' :: (place ++ slash) :=
    fun member => (visible _ (inside _ member)).2.2 rfl
  have text : (addressText place slash).toList = address := by
    rw [addressText, String.toList_ofList, whole]
  rw [parse, text, trimmed, kept, ← whole, scheme?_http] at parsed
  simp only [Option.bind_eq_bind, Option.bind_some, cutAt_of_absent noFragment,
    cutAt_of_absent noQuery, Option.bind_eq_some_iff, Prod.exists] at parsed
  obtain ⟨authority, path, read, same⟩ := parsed
  obtain ⟨there, root⟩ := hierarchy?_address solid ends read
  cases same
  exact ⟨rfl, there, root, rfl, rfl⟩

/-! ### Segments -/

variable {text : String} {list : List String}

theorem eq_of_encode {raw decoded : String} (same : encode plainSegment text = raw)
    (read : (Percent.decode (Bytes.ofText raw)).toText? = some decoded) : text = decoded := by
  have own := (escapes_encode staysInside_plainSegment text).decoded
  rw [same, read] at own
  exact (Option.some.inj own).symm

theorem isDot_encode (other : text ≠ ".") : isDot (encode plainSegment text) = false := by
  have read : ∀ raw ∈ [".", "%2e", "%2E"], (Percent.decode (Bytes.ofText raw)).toText? =
    some "." := by decide +kernel
  rw [Bool.eq_false_iff]
  intro dot
  exact other (eq_of_encode rfl (read _ (List.contains_iff_mem.1 dot)))

theorem isDoubleDot_encode (other : text ≠ "..") :
    isDoubleDot (encode plainSegment text) = false := by
  have read :
      ∀ raw ∈ ["..", ".%2e", ".%2E", "%2e.", "%2E.", "%2e%2e", "%2e%2E", "%2E%2e", "%2E%2E"],
        (Percent.decode (Bytes.ofText raw)).toText? = some ".." := by decide +kernel
  rw [Bool.eq_false_iff]
  intro dots
  exact other (eq_of_encode rfl (read _ (List.contains_iff_mem.1 dots)))

theorem appendSegment_eq (noDot : dropIgnored text ≠ ".") (noDots : dropIgnored text ≠ "..")
    (list : List String) :
    appendSegment list text = (if list = [""] then [] else list) ++
      [encode plainSegment (dropIgnored text)] := by
  have other : ¬ (text = "." ∨ text = "..") := by
    rintro (rfl | rfl)
    · exact noDot (by decide)
    · exact noDots (by decide)
  rw [appendSegment, if_neg other, pushLast, isDoubleDot_encode noDots, isDot_encode noDot]
  rfl

theorem appendSegment_dots (dots : dropIgnored text = "." ∨ dropIgnored text = "..")
    (several : list ≠ [""]) :
    appendSegment list text = list ∨ appendSegment list text = list ++ [""] ∨
      appendSegment list text = list.dropLast ++ [""] := by
  have same : encode plainSegment "." = "." ∧ encode plainSegment ".." = ".." := by decide +kernel
  unfold appendSegment
  split
  · exact .inl rfl
  · rcases dots with dot | dots
    · rw [dot, same.1]
      exact .inr (.inl rfl)
    · rw [dots, same.2]
      exact .inr (.inr rfl)

theorem inside_appendSegment (inside : ∀ segment ∈ list, ∀ c ∈ segment.toList, IsSegmentChar c)
    (text : String) :
    ∀ segment ∈ appendSegment list text, ∀ c ∈ segment.toList, IsSegmentChar c := by
  have front :
      ∀ segment ∈ (if list = [""] then [] else list), ∀ c ∈ segment.toList, IsSegmentChar c := by
    split
    · exact nofun
    · exact inside
  have empty : ∀ segment ∈ [""], ∀ c ∈ segment.toList, IsSegmentChar c :=
    List.forall_mem_singleton.2 escapes_empty.inside
  unfold appendSegment
  split
  · exact inside
  · unfold pushLast
    split
    · exact List.forall_mem_append.2
        ⟨fun segment member => front segment (List.dropLast_subset _ member), empty⟩
    · split
      · exact List.forall_mem_append.2 ⟨front, empty⟩
      · exact List.forall_mem_append.2
          ⟨front,
            List.forall_mem_singleton.2 (inside_encode staysInside_plainSegment (dropIgnored text))⟩

theorem inside_extended (inside : ∀ segment ∈ list, ∀ c ∈ segment.toList, IsSegmentChar c)
    (added : List String) :
    ∀ segment ∈ added.foldl appendSegment list, ∀ c ∈ segment.toList, IsSegmentChar c := by
  induction added generalizing list with
  | nil => exact inside
  | cons text rest ih => exact ih (inside_appendSegment inside text)

structure IsSegmentText (text : String) : Prop where
  solid : ∀ c ∈ text.toList, isIgnored c = false
  nonempty : text ≠ ""
  noDot : text ≠ "."
  noDots : text ≠ ".."

theorem solid_dropIgnored (text : String) :
    ∀ c ∈ (dropIgnored text).toList, isIgnored c = false := by
  intro c member
  rw [dropIgnored, String.toList_ofList] at member
  simpa using (List.mem_filter.1 member).2

theorem IsSegmentText.of_kept (kept : dropIgnored text = text) (nonempty : text ≠ "")
    (noDot : text ≠ ".") (noDots : text ≠ "..") : IsSegmentText text where
  solid := by
    have solid := solid_dropIgnored text
    rwa [kept] at solid
  nonempty := nonempty
  noDot := noDot
  noDots := noDots

/-- What is left of a text without its tabs and line breaks is one that a segment can stand for, or
nothing, or a dot or two. -/
theorem dropIgnored_cases (text : String) : IsSegmentText (dropIgnored text) ∨
    dropIgnored text = "" ∨ dropIgnored text = "." ∨ dropIgnored text = ".." := by
  by_cases few : dropIgnored text = "" ∨ dropIgnored text = "." ∨ dropIgnored text = ".."
  · exact .inr few
  · simp only [not_or] at few
    exact .inl ⟨solid_dropIgnored text, few.1, few.2.1, few.2.2⟩

theorem dropIgnored_of_none (none : ∀ c ∈ text.toList, isIgnored c = false) :
    dropIgnored text = text := by
  rw [dropIgnored, filter_isIgnored none, String.ofList_toList]

theorem visible_of_isPositional {c : Char} (positional : Decimal.IsPositional c) :
    0x20 < c.toNat := by
  rcases positional with digit | rfl | rfl
  · have range := Json.toNat_of_isDigit digit
    omega
  · decide
  · decide

theorem appendSegment_value {value : Value} (writes : Value.Writes text value)
    (several : list ≠ [""]) :
    appendSegment list text = list ++ [text] := by
  have kept : dropIgnored text = text :=
    dropIgnored_of_none fun c member =>
      isIgnored_of_visible (visible_of_isPositional (writes.positional c member))
  have unreadable : ∀ kind : Kind, kind.readValue "." ≠ .ok value ∧
      kind.readValue ".." ≠ .ok value := by
    intro kind
    cases kind <;> exact ⟨nofun, nofun⟩
  have noDot : dropIgnored text ≠ "." := by
    rw [kept]
    rintro rfl
    exact (unreadable _).1 writes.read
  have noDots : dropIgnored text ≠ ".." := by
    rw [kept]
    rintro rfl
    exact (unreadable _).2 writes.read
  rw [appendSegment_eq noDot noDots, kept, encode_positional writes.positional, if_neg several]

end Telemetry.Url
