import Telemetry.Net.Uri
import Telemetry.Proofs.Span

namespace Telemetry.Net.Uri

def isEnd (c : Char) : Bool := c == '/' || c == '?' || c == '#'

theorem isEnd_of_step {scan after : Scan} {c : Char} (stepped : scan.step c = some after) :
    isEnd c = false := by
  rw [Bool.eq_false_iff]
  intro ends
  simp only [isEnd, Bool.or_eq_true, beq_iff_eq] at ends
  have stuck : scan.step '/' = none ∧ scan.step '?' = none ∧ scan.step '#' = none := ⟨rfl, rfl, rfl⟩
  rcases ends with (rfl | rfl) | rfl
  · exact nomatch stuck.1.symm.trans stepped
  · exact nomatch stuck.2.1.symm.trans stepped
  · exact nomatch stuck.2.2.symm.trans stepped

theorem isEnd_of_scanned {text : List Char} {scan after : Scan}
    (scanned : text.foldlM Scan.step scan = some after) :
    ∀ c ∈ text, isEnd c = false := by
  induction text generalizing scan with
  | nil => exact nofun
  | cons c rest ih =>
    rw [List.foldlM_cons, Option.bind_eq_bind, Option.bind_eq_some_iff] at scanned
    obtain ⟨next, stepped, later⟩ := scanned
    exact List.forall_mem_cons.2 ⟨isEnd_of_step stepped, ih later⟩

theorem isEnd_of_isAuthority {text : List Char} (authority : isAuthority text = true) :
    ∀ c ∈ text, isEnd c = false := by
  rw [isAuthority] at authority
  split at authority
  case h_1 after scanned => exact isEnd_of_scanned scanned
  case h_2 => cases authority

theorem isTarget_of_path {path : List Char} (inside : ∀ c ∈ path, isPathChar c = true) :
    isTarget path = true := by
  have marks : ∀ c ∈ path, (c != '#') = true ∧ (c != '?') = true := by
    intro c member
    have plain := inside c member
    simp only [isPathChar, Bool.and_eq_true] at plain
    exact ⟨plain.1.1.1.1.2, plain.1.2⟩
  have unmarked := (span_of_all fun c member => (marks c member).1).1
  obtain ⟨whole, nothing⟩ := span_of_all fun c member => (marks c member).2
  rw [isTarget]
  simp only [unmarked, whole, nothing, List.drop_nil, List.all_nil, Bool.and_true]
  exact List.all_eq_true.2 inside

theorem afterScheme?_http (rest : List Char) :
    afterScheme? ('h' :: 't' :: 't' :: 'p' :: ':' :: '/' :: '/' :: rest) = some rest := by
  have letters : ∀ c ∈ ['h', 't', 't', 'p'], isSchemeChar c = true := List.all_eq_true.1 rfl
  have colon : ∀ c ∈ (':' :: '/' :: '/' :: rest).head?, isSchemeChar c = false := by
    rintro c ⟨⟩
    decide
  obtain ⟨name, behind⟩ := span_append letters colon
  rw [List.cons_append, List.cons_append, List.cons_append, List.cons_append,
    List.nil_append] at name behind
  rw [afterScheme?, name, behind]
  rfl

theorem isValid_of_parts {text : String} {place path : List Char}
    (parts : text.toList = 'h' :: 't' :: 't' :: 'p' :: ':' :: '/' :: '/' :: (place ++ path))
    (short : text.utf8ByteSize < lengthLimit) (authority : isAuthority place = true)
    (rooted : ∀ c ∈ path.head?, c = '/') (inside : ∀ c ∈ path, isPathChar c = true) :
    isValid text = true := by
  have before : ∀ c ∈ place, (!isEnd c) = true := by
    intro c member
    rw [isEnd_of_isAuthority authority c member]
    rfl
  have stops : ∀ c ∈ path.head?, (!isEnd c) = false := by
    intro c first
    rw [rooted c first]
    rfl
  obtain ⟨host, behind⟩ := span_append before stops
  rw [isValid, parts, afterScheme?_http, decide_eq_true short, Bool.true_and]
  change (isAuthority ((place ++ path).takeWhile (!isEnd ·)) &&
    isTarget ((place ++ path).dropWhile (!isEnd ·))) = true
  rw [host, behind, authority, isTarget_of_path inside, Bool.true_and]

end Telemetry.Net.Uri
