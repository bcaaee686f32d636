namespace Telemetry.Text

def cut? (mark : List Char) : List Char → Option (List Char × List Char)
  | [] => if mark = [] then some ([], []) else none
  | c :: rest =>
    if mark.isPrefixOf (c :: rest) then some ([], (c :: rest).drop mark.length)
    else (cut? mark rest).map fun (before, after) => (c :: before, after)

def contains (mark text : List Char) : Bool := (cut? mark text).isSome

/-- The part up to the first occurrence of a character, and those after each occurrence. -/
def parts (mark : Char) : List Char → List Char × List (List Char)
  | [] => ([], [])
  | c :: rest =>
    let (first, others) := parts mark rest
    if c = mark then ([], first :: others) else (c :: first, others)

def split (mark : Char) (text : String) : List String :=
  let (first, others) := parts mark text.toList
  (first :: others).map String.ofList

theorem append_of_cut? {mark text before after : List Char}
    (h : cut? mark text = some (before, after)) :
    before ++ mark ++ after = text := by
  induction text generalizing before with
  | nil =>
    simp only [cut?] at h
    split at h
    · simp_all
    · cases h
  | cons c rest ih =>
    simp only [cut?] at h
    split at h
    · rename_i found
      obtain ⟨tail, same⟩ := List.isPrefixOf_iff_prefix.1 found
      cases h
      rw [← same]
      simp
    · cases inner : cut? mark rest with
      | none => simp [inner] at h
      | some parts =>
        obtain ⟨first, second⟩ := parts
        simp only [inner, Option.map_some, Option.some.injEq, Prod.mk.injEq] at h
        obtain ⟨rfl, rfl⟩ := h
        simpa using ih inner

/-- A mark cuts behind a part that does not contain its first character. -/
theorem cut?_mark {first : Char} {before : List Char} (absent : first ∉ before)
    (mark after : List Char) :
    cut? (first :: mark) (before ++ (first :: mark ++ after)) = some (before, after) := by
  induction before with
  | nil => simp [cut?, List.isPrefixOf]
  | cons c rest ih =>
    simp only [List.mem_cons, not_or] at absent
    simp only [List.cons_append] at ih
    simp [cut?, List.isPrefixOf, absent.1, ih absent.2]

theorem cut?_front (mark after : List Char) : cut? mark (mark ++ after) = some ([], after) := by
  cases mark with
  | nil => cases after <;> rfl
  | cons first mark => exact cut?_mark List.not_mem_nil mark after

theorem cut?_char {mark : Char} {before : List Char} (absent : mark ∉ before) (after : List Char) :
    cut? [mark] (before ++ mark :: after) = some (before, after) := cut?_mark absent [] after

end Telemetry.Text
