import Mathlib.Data.List.Basic
import Telemetry.Proofs.Metric.Text
import Telemetry.Proofs.Server.Responses

/-!
The page that lists every series, as a reader cuts it at its tags. Main statement: the cells of the
rows are the series in their order, whatever their ids are, so that different lists have different
pages; and that page is what a request for it brings.
-/
namespace Telemetry

namespace Page

/-! ### Escapes -/

def unescape : List Char → List Char
  | '&' :: 'a' :: 'm' :: 'p' :: ';' :: rest => '&' :: unescape rest
  | '&' :: 'l' :: 't' :: ';' :: rest => '<' :: unescape rest
  | '&' :: 'g' :: 't' :: ';' :: rest => '>' :: unescape rest
  | '&' :: 'q' :: 'u' :: 'o' :: 't' :: ';' :: rest => '"' :: unescape rest
  | c :: rest => c :: unescape rest
  | [] => []

def entities : List (List Char) := ["amp;".toList, "lt;".toList, "gt;".toList, "quot;".toList]

structure IsEscaped (raw text : List Char) : Prop where
  undone : unescape text = raw
  plain : ∀ c ∈ text, c ∉ ['<', '>', '"']
  entity : ∀ front back, text = front ++ '&' :: back → ∃ name ∈ entities, name <+: back

theorem escapeChar_cases (c : Char) :
    (∃ name ∈ entities, escapeChar c = '&' :: name) ∨ escapeChar c = [c] ∧
      c ∉ ['&', '<', '>', '"'] := by
  unfold escapeChar
  split
  case h_5 amp lt gt quot => exact .inr ⟨rfl, by simp_all⟩
  all_goals exact .inl ⟨_, by decide, rfl⟩

theorem unescape_cons {c : Char} (plain : c ≠ '&') (rest : List Char) :
    unescape (c :: rest) = c :: unescape rest := by
  rw [unescape.eq_def]
  split <;> simp_all

theorem unescape_escapeChar (c : Char) (rest : List Char) :
    unescape (escapeChar c ++ rest) = c :: unescape rest := by
  unfold escapeChar
  split
  case h_5 amp _ _ _ => exact unescape_cons amp rest
  all_goals rfl

theorem not_mem_entities : ∀ name ∈ entities, ∀ c ∈ name, c ∉ ['&', '<', '>', '"'] := by
  simp [entities]

theorem eq_append_of_absent {mark : Char} {part rest front back : List Char} (absent : mark ∉ part)
    (same : part ++ rest = front ++ mark :: back) : ∃ between, rest = between ++ mark :: back := by
  induction part generalizing front with
  | nil => exact ⟨front, same⟩
  | cons c others ih =>
    simp only [List.mem_cons, not_or] at absent
    cases front with
    | nil => exact absurd (List.cons.inj same).1.symm absent.1
    | cons first front => exact ih absent.2 (List.cons.inj same).2

theorem isEscaped_escape (raw : List Char) : IsEscaped raw (escape raw) where
  undone := by
    induction raw with
    | nil => rfl
    | cons c rest ih => rw [escape, List.flatMap_cons, unescape_escapeChar, ← escape, ih]
  plain := by
    intro c member
    obtain ⟨own, -, inside⟩ := List.mem_flatMap.1 member
    rcases escapeChar_cases own with ⟨name, known, same⟩ | ⟨same, plain⟩
    · rw [same] at inside
      rcases List.mem_cons.1 inside with rfl | inside
      · decide
      · exact fun tag => not_mem_entities name known c inside (List.mem_cons_of_mem _ tag)
    · rw [same] at inside
      cases List.mem_singleton.1 inside
      exact fun tag => plain (List.mem_cons_of_mem _ tag)
  entity := by
    induction raw with
    | nil => simp [escape]
    | cons c rest ih =>
      intro front back same
      rw [escape, List.flatMap_cons, ← escape] at same
      rcases escapeChar_cases c with ⟨name, known, escaped⟩ | ⟨escaped, plain⟩
      · rw [escaped, List.cons_append] at same
        cases front with
        | nil => exact ⟨name, known, escape rest, (List.cons.inj same).2⟩
        | cons first front =>
          -- The name of an entity has no ampersand, so this one belongs to a later character.
          have absent : '&' ∉ name :=
            fun inside => not_mem_entities name known '&' inside (by decide)
          obtain ⟨between, later⟩ := eq_append_of_absent absent (List.cons.inj same).2
          exact ih between back later
      · rw [escaped] at same
        have absent : '&' ∉ [c] := by
          rintro (_ | ⟨_, ⟨⟩⟩)
          exact plain (by decide)
        obtain ⟨between, later⟩ := eq_append_of_absent absent same
        exact ih between back later

/-! ### Rows -/

def rowStart : List Char := '<' :: "tr><td>".toList

def cellBreak : List Char := '<' :: "/td><td>".toList

def rowEnd : List Char := '<' :: "/td></tr>\n".toList

structure Cells where
  name : List Char
  kind : List Char
  value : List Char

namespace Cells

def row (cells : Cells) : List Char :=
  rowStart ++ (cells.name ++ (cellBreak ++ (cells.kind ++ (cellBreak ++ (cells.value ++ rowEnd)))))

structure IsPlain (cells : Cells) : Prop where
  name : '<' ∉ cells.name
  kind : '<' ∉ cells.kind
  value : '<' ∉ cells.value

/-- What the cells say: a name with its entities undone, a type and a value. -/
def triple (cells : Cells) : String × String × String :=
  (String.ofList (unescape cells.name), String.ofList cells.kind, String.ofList cells.value)

def cutRow? (text : List Char) : Option (Cells × List Char) := do
  let ([], text) ← Text.cut? rowStart text | none
  let (name, text) ← Text.cut? cellBreak text
  let (kind, text) ← Text.cut? cellBreak text
  let (value, rest) ← Text.cut? rowEnd text
  return (⟨name, kind, value⟩, rest)

theorem cutRow?_row {cells : Cells} (plain : cells.IsPlain) (rest : List Char) :
    cutRow? (cells.row ++ rest) = some (cells, rest) := by
  have start : Text.cut? rowStart (cells.row ++ rest) = some ([], cells.name ++ (cellBreak ++
      (cells.kind ++ (cellBreak ++ (cells.value ++ (rowEnd ++ rest)))))) := by
    rw [row]
    simp only [List.append_assoc]
    exact Text.cut?_front _ _
  have name :=
    Text.cut?_mark plain.name "/td><td>".toList
      (cells.kind ++ (cellBreak ++ (cells.value ++ (rowEnd ++ rest))))
  have kind := Text.cut?_mark plain.kind "/td><td>".toList (cells.value ++ (rowEnd ++ rest))
  have value := Text.cut?_mark plain.value "/td></tr>\n".toList rest
  rw [← cellBreak] at name kind
  rw [← rowEnd] at value
  simp only [cutRow?, start, name, kind, value, Option.bind_eq_bind, Option.bind_some]
  rfl

theorem length_of_cut? {mark text before after : List Char}
    (cut : Text.cut? mark text = some (before, after)) :
    text.length = before.length + mark.length + after.length := by
  rw [← Text.append_of_cut? cut, List.length_append, List.length_append]

theorem length_of_cutRow? {cells : Cells} {text rest : List Char}
    (cut : cutRow? text = some (cells, rest)) :
    rest.length < text.length := by
  obtain ⟨⟨before, afterStart⟩, start, cut⟩ := Option.bind_eq_some_iff.1 cut
  cases before with
  | cons => cases cut
  | nil =>
    obtain ⟨⟨name, afterName⟩, byName, cut⟩ := Option.bind_eq_some_iff.1 cut
    obtain ⟨⟨kind, afterKind⟩, byKind, cut⟩ := Option.bind_eq_some_iff.1 cut
    obtain ⟨⟨value, afterValue⟩, byValue, cut⟩ := Option.bind_eq_some_iff.1 cut
    cases cut
    have startLength : rowStart.length = 8 := rfl
    have first := length_of_cut? start
    have second := length_of_cut? byName
    have third := length_of_cut? byKind
    have fourth := length_of_cut? byValue
    omega

end Cells

open Cells in
def cutRows (text : List Char) : List Cells × List Char :=
  match _cut : cutRow? text with
  | none => ([], text)
  | some (cells, rest) => ((cells :: (cutRows rest).1), (cutRows rest).2)
termination_by text.length
decreasing_by all_goals exact length_of_cutRow? _cut

theorem cutRows_rows {rows : List Cells} (plain : ∀ cells ∈ rows, cells.IsPlain) {rest : List Char}
    (stop : Cells.cutRow? rest = none) :
    cutRows (rows.flatMap Cells.row ++ rest) = (rows, rest) := by
  induction rows with
  | nil =>
    rw [List.flatMap_nil, List.nil_append, cutRows]
    split
    · rfl
    · rename_i cut
      rw [stop] at cut
      cases cut
  | cons cells others ih =>
    simp only [List.forall_mem_cons] at plain
    have first := Cells.cutRow?_row plain.1 (others.flatMap Cells.row ++ rest)
    rw [List.flatMap_cons, List.append_assoc, cutRows]
    split
    · rename_i cut
      rw [first] at cut
      cases cut
    · rename_i cut
      rw [first] at cut
      cases cut
      rw [ih plain.2]

def read? (page : String) : Option (List Cells) := do
  let ([], body) ← Text.cut? head.toList page.toList | none
  let (rows, rest) := cutRows body
  if rest = tail.toList then some rows else none

/-! ### Pages -/

theorem not_mem_toText (value : Value) : '<' ∉ value.toText.toList := by
  intro member
  by_cases finite : value.isFinite
  · have positional := (Value.writes_toText finite).positional '<' member
    revert positional
    unfold Decimal.IsPositional
    decide
  · cases value with
    | counter delta => exact finite rfl
    | gauge reading =>
      cases reading with
      | nan => exact absurd member (by decide)
      | infinite negative => cases negative <;> exact absurd member (by decide)
      | finite => exact finite rfl

theorem not_mem_name (kind : Kind) : '<' ∉ kind.name.toList := by
  cases kind <;> decide

def cells (key : Key) (value : Value) : Cells :=
  ⟨escape key.id.toList, key.kind.name.toList, value.toText.toList⟩

theorem isPlain_cells (key : Key) (value : Value) : (cells key value).IsPlain where
  name member := (isEscaped_escape key.id.toList).plain '<' member (by decide)
  kind := not_mem_name key.kind
  value := not_mem_toText value

theorem toList_row (key : Key) (value : Value) :
    (row key value).toList = (cells key value).row := by
  simp [row, Cells.row, cells, rowStart, cellBreak, rowEnd]

theorem triple_cells (key : Key) (value : Value) :
    (cells key value).triple = (key.id, key.kind.name, value.toText) := by
  simp [cells, Cells.triple, (isEscaped_escape key.id.toList).undone]

theorem toList_render (contents : Contents) :
    (render contents).toList =
      head.toList ++
        ((contents.entries.map fun entry => cells entry.1 entry.2).flatMap Cells.row ++
          tail.toList) := by
  rw [render, String.toList_append, String.toList_append, String.toList_join, List.append_assoc,
    List.flatMap_map, List.flatMap_map]
  simp only [toList_row]

/-- Rows of plain cells are read back as they are. -/
theorem read?_rows {rows : List Cells} (plain : ∀ cells ∈ rows, cells.IsPlain) {page : String}
    (split : page.toList = head.toList ++ (rows.flatMap Cells.row ++ tail.toList)) :
    read? page = some rows := by
  have body :
      Text.cut? head.toList page.toList = some ([], rows.flatMap Cells.row ++ tail.toList) := by
    rw [split]
    exact Text.cut?_front _ _
  have stop : Cells.cutRow? tail.toList = none := by decide
  simp [read?, body, cutRows_rows plain stop]

def shown (entry : Key × Value) :
    String × String × String := (entry.1.id, entry.1.kind.name, entry.2.toText)

/-- A page can be read in one way, as the series of a list in their order. -/
structure ReadsBack (contents : Contents) (page : String) : Prop where
  rows : page = head ++ String.join (contents.entries.map fun entry => row entry.1 entry.2) ++ tail
  ordered : contents.entries.Pairwise fun first second => first.1.precedes second.1
  read : (read? page).map (List.map Cells.triple) = some (contents.entries.map shown)
  /-- However the text between head and tail is split into rows with three cells, these are the
  cells. -/
  only : ∀ rows : List Cells, (∀ cells ∈ rows, cells.IsPlain) →
    page.toList = head.toList ++ (rows.flatMap Cells.row ++ tail.toList) →
      rows.map Cells.triple = contents.entries.map shown

theorem read?_render (contents : Contents) :
    read? (render contents) = some (contents.entries.map fun entry => cells entry.1 entry.2) := by
  refine read?_rows ?_ (toList_render contents)
  intro row member
  obtain ⟨entry, -, rfl⟩ := List.mem_map.1 member
  exact isPlain_cells entry.1 entry.2

theorem map_triple_cells (entries : List (Key × Value)) :
    (entries.map fun entry => cells entry.1 entry.2).map Cells.triple = entries.map shown := by
  rw [List.map_map]
  exact List.map_congr_left fun entry _ => triple_cells entry.1 entry.2

theorem readsBack_render (contents : Contents) : ReadsBack contents (render contents) where
  rows := rfl
  ordered := contents.sorted
  read := by
    rw [read?_render, Option.map_some, map_triple_cells]
  only := by
    intro rows plain split
    have same := (read?_rows plain split).symm.trans (read?_render contents)
    rw [Option.some.inj same, map_triple_cells]

/-- The series of a list by their keys, with the texts of their values. -/
def spelled (contents : Contents) : List (Key × String) :=
  contents.entries.map fun entry => (entry.1, entry.2.toText)

theorem spelled_of_render {contents other : Contents} (same : render contents = render other) :
    spelled contents = spelled other := by
  have spells : Function.Injective
      fun series : Key × String => (series.1.id, series.1.kind.name, series.2) := by
    rintro ⟨⟨id, kind⟩, text⟩ ⟨⟨id', kind'⟩, text'⟩ alike
    simp only [Prod.mk.injEq] at alike
    obtain ⟨rfl, names, rfl⟩ := alike
    rw [Kind.name_injective names]
  have listed := (readsBack_render contents).read
  rw [same, (readsBack_render other).read, Option.some.injEq] at listed
  apply List.map_injective_iff.2 spells
  rw [spelled, spelled, List.map_map, List.map_map]
  exact listed.symm

theorem render_of_spelled {contents other : Contents} (same : spelled contents = spelled other) :
    render contents = render other := by
  have rows : ∀ contents : Contents, contents.entries.map (fun entry => row entry.1 entry.2) =
      (spelled contents).map fun series => "<tr><td>" ++
        String.ofList (escape series.1.id.toList) ++ "</td><td>"
        ++ series.1.kind.name ++ "</td><td>" ++ series.2 ++ "</td></tr>\n" := by
    intro contents
    rw [spelled, List.map_map]
    rfl
  rw [(readsBack_render contents).rows, (readsBack_render other).rows, rows, rows, same]

end Page

namespace Server

variable {σ : Type}

/-- A request for the page is answered with it, as it stands for the series that the store lists. -/
def ServesPage (server : Server σ) : Prop :=
  ∀ (request : Request) (state : σ) (contents : Contents), request.method = "GET" →
    request.path = "/" →
    server.storage.all state = .ok contents →
      (server.respond request state).1.status = 200 ∧
        (server.respond request state).1.Brings (Bytes.ofText (Page.render contents)) ∧
          (server.respond request state).2 = state

theorem receive_page (server : Server σ) {request : Request} (get : request.method = "GET")
    {state : σ} {contents : Contents} (lists : server.storage.all state = .ok contents) :
    server.receive request (some .index) state =
      (server.signResponse (Response.html (Page.render contents)), state) := by
  have noPost : request.method ≠ "POST" := by
    rw [get]
    decide
  rw [receive, if_neg noPost, get]
  simp only [answer, serve, lists]
  rfl

theorem servesPage (server : Server σ) : server.ServesPage := by
  intro request state contents get root lists
  have index : Route.ofPath? request.path = some .index := by
    rw [root]
    rfl
  have noHead : request.method ≠ "HEAD" := by
    rw [get]
    decide
  have received := receive_page server get lists
  have delivers := server.delivers request state
  rw [Delivers, if_neg noHead, answerBody, index, received] at delivers
  refine ⟨?_, delivers, ?_⟩
  · rw [status_respond, index, received]
    rfl
  · rw [respond_eq_finish, index, received]

/-- The page lists every series in one row, whatever the names are, and can be read back; pages
differ where the keys or the texts of the values do. -/
theorem pages_read_back :
    (∀ contents : Contents, Page.ReadsBack contents (Page.render contents)) ∧
      (∀ name : List Char, Page.IsEscaped name (Page.escape name)) ∧
      (∀ contents other : Contents,
        Page.render contents = Page.render other ↔ Page.spelled contents = Page.spelled other) ∧
      ∀ (σ : Type) (server : Server σ), server.ServesPage :=
  ⟨Page.readsBack_render, Page.isEscaped_escape,
    fun _ _ => ⟨Page.spelled_of_render, Page.render_of_spelled⟩, fun _ server => servesPage server⟩

end Server
end Telemetry
