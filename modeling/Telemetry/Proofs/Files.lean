import Telemetry.Files
import Telemetry.Proofs.Result
import Telemetry.Proofs.Table

namespace Telemetry

namespace Text

theorem parts_of_absent {mark : Char} {text : List Char} (absent : mark ∉ text) :
    parts mark text = (text, []) := by
  induction text with
  | nil => rfl
  | cons c rest ih =>
    simp only [List.mem_cons, not_or] at absent
    simp only [parts, ih absent.2, if_neg (Ne.symm absent.1)]

theorem parts_append {mark : Char} {before : List Char} (absent : mark ∉ before)
    (after : List Char) :
    parts mark (before ++ mark :: after) =
      (before, (parts mark after).1 :: (parts mark after).2) := by
  induction before with
  | nil => simp [parts]
  | cons c rest ih =>
    simp only [List.mem_cons, not_or] at absent
    simp only [List.cons_append, parts, ih absent.2, if_neg (Ne.symm absent.1)]

theorem split_of_absent {mark : Char} {text : String} (absent : mark ∉ text.toList) :
    split mark text = [text] := by
  simp [split, parts_of_absent absent]

theorem split_append {mark : Char} {before : String} (absent : mark ∉ before.toList)
    (after : String) :
    split mark (before ++ String.singleton mark ++ after) = before :: split mark after := by
  simp [split, parts_append absent]

theorem not_mem_parts {mark : Char} (text : List Char) :
    mark ∉ (parts mark text).1 ∧ ∀ other ∈ (parts mark text).2, mark ∉ other := by
  induction text with
  | nil => simp [parts]
  | cons c rest ih =>
    obtain ⟨first, others⟩ := ih
    by_cases found : c = mark
    · simp only [parts, if_pos found, List.forall_mem_cons]
      exact ⟨List.not_mem_nil, first, others⟩
    · simp only [parts, if_neg found, List.mem_cons, not_or]
      exact ⟨⟨Ne.symm found, first⟩, others⟩

theorem not_mem_of_mem_split {mark : Char} {text part : String} (member : part ∈ split mark text) :
    mark ∉ part.toList := by
  have absent := @not_mem_parts mark text.toList
  simp only [split, List.map_cons, List.mem_cons, List.mem_map] at member
  rcases member with rfl | ⟨other, inside, rfl⟩
  · simpa using absent.1
  · simpa using absent.2 other inside

theorem parts_append_absent {mark : Char} {suffix : List Char} (absent : mark ∉ suffix)
    (text : List Char) :
    ∃ front last, (parts mark text).1 :: (parts mark text).2 = front ++ [last] ∧
      (parts mark (text ++ suffix)).1 :: (parts mark (text ++ suffix)).2 =
        front ++ [last ++ suffix] := by
  induction text with
  | nil => exact ⟨[], [], by simp [parts], by simp [parts_of_absent absent]⟩
  | cons c rest ih =>
    obtain ⟨front, last, before, after⟩ := ih
    by_cases found : c = mark
    · refine ⟨[] :: front, last, ?_, ?_⟩ <;> simp [parts, found, before, after]
    · cases front with
      | nil =>
        obtain ⟨rfl, none⟩ := List.cons.inj before
        obtain ⟨first, none'⟩ := List.cons.inj after
        refine ⟨[], c :: (parts mark rest).1, ?_, ?_⟩ <;> simp_all [parts]
      | cons first front =>
        obtain ⟨rfl, none⟩ := List.cons.inj before
        obtain ⟨first, none'⟩ := List.cons.inj after
        refine ⟨(c :: (parts mark rest).1) :: front, last, ?_, ?_⟩ <;> simp_all [parts]

theorem split_append_absent {mark : Char} {suffix : String} (absent : mark ∉ suffix.toList)
    (text : String) :
    ∃ front last, split mark text = front ++ [last] ∧
      split mark (text ++ suffix) = front ++ [last ++ suffix] := by
  obtain ⟨front, last, before, after⟩ := parts_append_absent absent text.toList
  refine ⟨front.map String.ofList, String.ofList last, ?_, ?_⟩
  · simp [split, before]
  · simp [split, after]

end Text

namespace Files

structure IsName (part : String) : Prop where
  nonempty : part ≠ ""
  noDot : part ≠ "."
  noDots : part ≠ ".."
  noSlash : '/' ∉ part.toList

instance (part : String) : Decidable (IsName part) :=
  decidable_of_iff (part ≠ "" ∧ part ≠ "." ∧ part ≠ ".." ∧ '/' ∉ part.toList)
    ⟨fun ⟨nonempty, noDot, noDots, noSlash⟩ => ⟨nonempty, noDot, noDots, noSlash⟩,
      fun ⟨nonempty, noDot, noDots, noSlash⟩ => ⟨nonempty, noDot, noDots, noSlash⟩⟩

structure IsPart (part : String) : Prop where
  nonempty : part ≠ ""
  noDot : part ≠ "."
  noSlash : '/' ∉ part.toList

theorem IsName.isPart {part : String} (named : IsName part) : IsPart part :=
  ⟨named.nonempty, named.noDot, named.noSlash⟩

theorem isPart_of_mem_parts {path part : String} (member : part ∈ parts path) : IsPart part := by
  obtain ⟨inside, kept⟩ := List.mem_filter.1 member
  obtain ⟨nonempty, noDot⟩ := of_decide_eq_true kept
  exact ⟨nonempty, noDot, Text.not_mem_of_mem_split inside⟩

theorem split_join {names : List String} (nonempty : names ≠ [])
    (cut : ∀ part ∈ names, IsPart part) :
    Text.split '/' (join names) = names := by
  have slash : "/" = String.singleton '/' := rfl
  induction names with
  | nil => exact absurd rfl nonempty
  | cons first rest ih =>
    simp only [List.forall_mem_cons] at cut
    by_cases more : rest = []
    · rw [more, join, String.intercalate_singleton, Text.split_of_absent cut.1.noSlash]
    · rw [join, String.intercalate_cons_of_ne_nil more, slash, Text.split_append cut.1.noSlash,
        ← slash]
      exact congrArg (first :: ·) (ih more cut.2)

theorem parts_join_of_parts {names : List String} (cut : ∀ part ∈ names, IsPart part) :
    parts (join names) = names := by
  by_cases nonempty : names = []
  · rw [nonempty]
    decide
  · rw [parts, split_join nonempty cut, List.filter_eq_self]
    intro part member
    simp [(cut part member).nonempty, (cut part member).noDot]

theorem parts_join {names : List String} (named : ∀ part ∈ names, IsName part) :
    parts (join names) = names :=
  parts_join_of_parts fun part member => (named part member).isPart

theorem join_injective_of_parts {names others : List String} (cut : ∀ part ∈ names, IsPart part)
    (otherCut : ∀ part ∈ others, IsPart part) (same : join names = join others) :
    names = others := by
  rw [← parts_join_of_parts cut, same, parts_join_of_parts otherCut]

theorem join_injective {names others : List String} (named : ∀ part ∈ names, IsName part)
    (otherNamed : ∀ part ∈ others, IsName part) (same : join names = join others) :
    names = others := by
  rw [← parts_join named, same, parts_join otherNamed]

theorem join_suffix (directories : List String) (name suffix : String) :
    join (directories ++ [name ++ suffix]) = join (directories ++ [name]) ++ suffix := by
  by_cases top : directories = []
  · rw [top, List.nil_append, List.nil_append, join, join, String.intercalate_singleton,
      String.intercalate_singleton]
  · have last : ∀ name : String, [name] ≠ [] := fun name => List.cons_ne_nil name []
    rw [join, join, String.intercalate_append_of_ne_nil top (last _),
      String.intercalate_append_of_ne_nil top (last _), String.intercalate_singleton,
      String.intercalate_singleton]
    simp only [String.append_assoc]

variable {names others : List String} {files : Files}

theorem node?_join (named : ∀ part ∈ names, IsName part) (files : Files) :
    files.node? (join names) = files.nodes.get? (join names) := by
  rw [node?, parts_join named]

theorem set_join (named : ∀ part ∈ names, IsName part) (files : Files) (node : Node) :
    files.set (join names) node = ⟨files.nodes.put (join names) node⟩ := by
  rw [set, parts_join named]

theorem node?_set_self (path : String) (node : Node) :
    (files.set path node).node? path = some node :=
  Table.get?_put_self ..

theorem node?_set_of_ne (named : ∀ part ∈ names, IsName part)
    (otherNamed : ∀ part ∈ others, IsName part) (differ : others ≠ names) (node : Node) :
    (files.set (join names) node).node? (join others) = files.node? (join others) := by
  have apart : join others ≠ join names := fun same => differ (join_injective otherNamed named same)
  rw [node?_join otherNamed, node?_join otherNamed, set_join named, Table.get?_put_of_ne _ apart]

theorem nodes_remove (files : Files) (path : String) :
    (files.remove path).nodes =
      Table.enterAll id id
        (files.nodes.entries.filter fun entry => decide (entry.1 ≠ join (parts path))) .empty := by
  rw [remove, Table.enterAll, List.foldl_filter]
  simp

theorem node?_remove_self (files : Files) (path : String) :
    (files.remove path).node? path = none := by
  rw [node?, nodes_remove, Table.get?_enterAll_of_ne, Table.get?_empty]
  intro entry member same
  exact of_decide_eq_true (List.mem_filter.1 member).2 same.symm

theorem node?_remove_of_ne (named : ∀ part ∈ names, IsName part)
    (otherNamed : ∀ part ∈ others, IsName part) (differ : others ≠ names) (files : Files) :
    (files.remove (join names)).node? (join others) = files.node? (join others) := by
  have apart : join others ≠ join names := fun same => differ (join_injective otherNamed named same)
  let keep : String → Bool := fun name => name ≠ join names
  have kept : keep (join others) := decide_eq_true apart
  have sorted : Table.Sorted (files.nodes.entries.filter fun entry => keep entry.1) :=
    files.nodes.sorted.filter _
  have found :=
    @Table.get?_enterAll _ _ _ _ _ _ id (fun _ _ same => same) id _ sorted (join others) .empty
  rw [Table.find?_filter kept, Table.get?_empty, Option.or_none, Option.map_id] at found
  rw [node?_join otherNamed, node?_join otherNamed, nodes_remove, parts_join named]
  exact found

theorem read_of_node? {path : String} {bytes : Bytes}
    (there : files.node? path = some (.file bytes)) :
    files.read path = .ok bytes := by
  rw [read, there]

theorem create_ok {path : String} (free : files.node? path ≠ some .directory) :
    files.create path = .ok (files.set path (.file [])) := by
  unfold create
  split
  · rename_i there
    exact absurd there free
  · rfl

theorem rename_ok {source target : String} {node : Node} (there : files.node? source = some node)
    (free : files.node? target ≠ some .directory) :
    files.rename source target = .ok ((files.remove source).set target node) := by
  rw [rename, there]
  rcases occupied : files.node? target with _ | bytes | _
  · rfl
  · rfl
  · exact absurd occupied free

/-! ### Directories -/

theorem ancestors_join (named : ∀ part ∈ names, IsName part) :
    ancestors (join names) = (List.range (names.length - 1)).map fun n =>
      join (names.take (n + 1)) := by
  rw [ancestors, parts_join named]

theorem parent?_join {name : String} (named : ∀ part ∈ names ++ [name], IsName part) :
    parent? (join (names ++ [name])) = if names = [] then none else some (join names) := by
  rw [parent?, ancestors_join named, List.length_append, List.length_singleton, Nat.add_sub_cancel]
  by_cases top : names = []
  · rw [top]
    rfl
  · have some := List.length_pos_iff.2 top
    have whole : names.length - 1 + 1 = names.length := by omega
    rw [if_neg top, List.getLast?_map, List.getLast?_range, if_neg (by omega), Option.map_some,
      whole, List.take_left]

def makeDirectory (files : Files) (path : String) : Except Fault Files :=
  match files.node? path with
  | some (.file _) => .error .obstructed
  | some .directory => .ok files
  | none => .ok (files.set path .directory)

theorem makeDirectories_eq (files : Files) (path : String) :
    files.makeDirectories path = (ancestors path ++ [path]).foldlM makeDirectory files := rfl

theorem makeDirectory_ok (named : ∀ part ∈ names, IsName part)
    (clear : ∀ bytes, files.node? (join names) ≠ some (.file bytes)) :
    ∃ made, files.makeDirectory (join names) = .ok made ∧
      made.node? (join names) = some .directory ∧
      ∀ others : List String, (∀ part ∈ others, IsName part) → others ≠ names →
        made.node? (join others) = files.node? (join others) := by
  rw [makeDirectory]
  rcases there : files.node? (join names) with _ | bytes | _
  · exact ⟨_, rfl, node?_set_self _ _, fun others otherNamed differ =>
      node?_set_of_ne named otherNamed differ _⟩
  · exact absurd there (clear bytes)
  · exact ⟨files, rfl, there, fun _ _ _ => rfl⟩

/-- The directories of which none is a file are made, and nothing else is touched. -/
theorem foldlM_makeDirectory {places : List (List String)}
    (named : ∀ names ∈ places, ∀ part ∈ names, IsName part)
    (clear : ∀ names ∈ places, ∀ bytes, files.node? (join names) ≠ some (.file bytes)) :
    ∃ made, (places.map join).foldlM makeDirectory files = .ok made ∧
      (∀ names ∈ places, made.node? (join names) = some .directory) ∧
      ∀ others : List String, (∀ part ∈ others, IsName part) → others ∉ places →
        made.node? (join others) = files.node? (join others) := by
  induction places generalizing files with
  | nil => exact ⟨files, rfl, nofun, fun _ _ _ => rfl⟩
  | cons names rest ih =>
    simp only [List.forall_mem_cons] at named clear
    obtain ⟨next, step, directory, frame⟩ := makeDirectory_ok named.1 clear.1
    have stillClear : ∀ others ∈ rest, ∀ bytes, next.node? (join others) ≠ some (.file bytes) := by
      intro others member bytes
      by_cases same : others = names
      · rw [same, directory]
        simp
      · rw [frame others (named.2 others member) same]
        exact clear.2 others member bytes
    obtain ⟨made, steps, directories, frames⟩ := ih named.2 stillClear
    refine ⟨made, ?_, ?_, ?_⟩
    · rw [List.map_cons, List.foldlM_cons, step, ok_bind, steps]
    · refine List.forall_mem_cons.2 ⟨?_, directories⟩
      by_cases again : names ∈ rest
      · exact directories names again
      · rw [frames names named.1 again, directory]
    · intro others otherNamed absent
      simp only [List.mem_cons, not_or] at absent
      rw [frames others otherNamed absent.2, frame others otherNamed absent.1]

theorem makeDirectories_ok (nonempty : names ≠ []) (named : ∀ part ∈ names, IsName part)
    (clear : ∀ front, front <+: names → front ≠ [] →
      ∀ bytes, files.node? (join front) ≠ some (.file bytes)) :
    ∃ made, files.makeDirectories (join names) = .ok made ∧
      (∀ front, front <+: names → front ≠ [] → made.node? (join front) = some .directory) ∧
      ∀ others : List String, (∀ part ∈ others, IsName part) → ¬ others <+: names →
        made.node? (join others) = files.node? (join others) := by
  have some := List.length_pos_iff.2 nonempty
  have whole : names.length - 1 + 1 = names.length := by omega
  -- The directories are made from the top down, each front of the path once.
  have chain : ancestors (join names) ++ [join names] =
      ((List.range names.length).map fun n => names.take (n + 1)).map join := by
    rw [ancestors_join named, List.map_map, ← whole, List.range_succ, List.map_append, whole]
    simp [whole]
  have fronts : ∀ front ∈ (List.range names.length).map fun n => names.take (n + 1),
      front <+: names ∧ front ≠ [] := by
    intro front member
    obtain ⟨n, -, rfl⟩ := List.mem_map.1 member
    refine ⟨List.take_prefix _ _, ?_⟩
    simp [nonempty]
  rw [makeDirectories_eq, chain]
  obtain ⟨made, steps, directories, frames⟩ := foldlM_makeDirectory
    (fun front member part inside => named part ((fronts front member).1.subset inside))
    (fun front member => clear front (fronts front member).1 (fronts front member).2)
  refine ⟨made, steps, ?_, ?_⟩
  · intro front part some
    have length := List.length_pos_iff.2 some
    have whole : front.length - 1 + 1 = front.length := by omega
    apply directories
    refine List.mem_map.2 ⟨front.length - 1, List.mem_range.2 ?_, ?_⟩
    · have bound := part.length_le
      omega
    · rw [whole, ← List.prefix_iff_eq_take.1 part]
  · intro others otherNamed apart
    exact frames others otherNamed fun member => apart (fronts others member).1

/-! ### Paths and places -/

theorem join_parts_inj {path other : String} : join (parts path) = join (parts other) ↔
    parts path = parts other := by
  refine ⟨?_, congrArg join⟩
  exact join_injective_of_parts (fun _ => isPart_of_mem_parts) fun _ => isPart_of_mem_parts

theorem node?_set (files : Files) (path other : String) (node : Node) :
    (files.set path node).node? other =
      if parts other = parts path then some node else files.node? other := by
  simp only [node?, set, Table.get?_put, join_parts_inj]

theorem node?_remove (files : Files) (path other : String) :
    (files.remove path).node? other =
      if parts other = parts path then none else files.node? other := by
  by_cases same : parts other = parts path
  · rw [if_pos same, node?, same]
    exact node?_remove_self files path
  · rw [if_neg same]
    have kept : decide (join (parts other) ≠ join (parts path)) = true :=
      decide_eq_true (same ∘ join_parts_inj.1)
    have sorted :
        Table.Sorted
          (files.nodes.entries.filter fun entry => decide (entry.1 ≠ join (parts path))) :=
      files.nodes.sorted.filter _
    have found := @Table.get?_enterAll _ _ _ _ _ _ id (fun _ _ same => same) id _ sorted
      (join (parts other)) .empty
    rw [@Table.find?_filter _ _ _ (fun name => decide (name ≠ join (parts path))) _ kept,
      Table.get?_empty, Option.or_none, Option.map_id] at found
    rw [node?, nodes_remove]
    exact found

def file? (files : Files) (path : String) : Option Bytes :=
  match files.node? path with
  | some (.file bytes) => some bytes
  | _ => none

theorem file?_eq_of_node? {before after : Files} {path : String}
    (same : after.node? path = before.node? path) :
    after.file? path = before.file? path := by
  rw [file?, same, file?]

theorem length_parts_of_mem_ancestors {path front : String} (member : front ∈ ancestors path) :
    (parts front).length < (parts path).length := by
  obtain ⟨n, inside, rfl⟩ := List.mem_map.1 member
  rw [List.mem_range] at inside
  rw [parts_join_of_parts fun part member => isPart_of_mem_parts (List.mem_of_mem_take member),
    List.length_take]
  omega

theorem length_parts_of_mem_makeDirectories {path parent front : String}
    (above : parent? path = some parent) (member : front ∈ ancestors parent ++ [parent]) :
    (parts front).length < (parts path).length := by
  have below := length_parts_of_mem_ancestors (List.mem_of_getLast? above)
  rcases List.mem_append.1 member with inside | last
  · exact Nat.lt_trans (length_parts_of_mem_ancestors inside) below
  · rwa [List.mem_singleton.1 last]

/-- What was made of some directories touches no file, and nothing at other places. -/
structure Adds (files made : Files) (places : List String) : Prop where
  file? : ∀ other, made.file? other = files.file? other
  node? : ∀ other, (∀ place ∈ places, parts other ≠ parts place) →
    made.node? other = files.node? other

theorem makeDirectory_adds {files made : Files} {path : String}
    (makes : files.makeDirectory path = .ok made) :
    Adds files made [path] := by
  unfold makeDirectory at makes
  split at makes
  · cases makes
  · cases makes
    exact ⟨fun _ => rfl, fun _ _ => rfl⟩
  · rename_i free
    cases makes
    constructor
    · intro other
      by_cases same : parts other = parts path
      · rw [Files.file?, Files.file?, node?_set, if_pos same, Files.node?, same]
        rw [Files.node?] at free
        rw [free]
      · exact file?_eq_of_node? (by rw [node?_set, if_neg same])
    · intro other apart
      rw [node?_set, if_neg (apart path (List.mem_singleton_self path))]

theorem foldlM_makeDirectory_adds {places : List String} {files made : Files}
    (makes : places.foldlM makeDirectory files = .ok made) : Adds files made places := by
  induction places generalizing files with
  | nil =>
    cases makes
    exact ⟨fun _ => rfl, fun _ _ => rfl⟩
  | cons first rest ih =>
    rw [List.foldlM_cons] at makes
    obtain ⟨next, here, later⟩ := bind_eq_ok_iff.1 makes
    have step := makeDirectory_adds here
    have steps := ih later
    constructor
    · intro other
      exact (steps.file? other).trans (step.file? other)
    · intro other apart
      simp only [List.forall_mem_cons] at apart
      rw [steps.node? other apart.2, step.node? other (by simpa using apart.1)]

end Files
end Telemetry
