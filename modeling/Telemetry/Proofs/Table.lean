import Telemetry.Table

namespace Telemetry.Table

variable {κ α β : Type} [Ascending κ]

theorem ne_of_lt {a b : κ} (below : a < b) : a ≠ b := by
  intro same
  exact Ascending.irrefl b (same ▸ below)

theorem mem_of_find? {key : κ} {value : α} {entries : List (κ × α)}
    (found : find? key entries = some value) :
    (key, value) ∈ entries := by
  induction entries with
  | nil => cases found
  | cons first rest ih =>
    rw [find?] at found
    split at found
    · rename_i same
      cases found
      exact List.mem_cons.2 (.inl (Prod.ext same rfl))
    · exact List.mem_cons_of_mem _ (ih found)

theorem find?_eq_none_of_below {key : κ} {entries : List (κ × α)}
    (below : ∀ entry ∈ entries, key < entry.1) : find? key entries = none := by
  induction entries with
  | nil => rfl
  | cons first rest ih =>
    simp only [List.forall_mem_cons] at below
    rw [find?, if_neg (ne_of_lt below.1), ih below.2]

theorem find?_eq_some_iff {key : κ} {value : α} {entries : List (κ × α)} (sorted : Sorted entries) :
    find? key entries = some value ↔ (key, value) ∈ entries := by
  induction entries with
  | nil => simp [find?]
  | cons first rest ih =>
    obtain ⟨below, sortedRest⟩ := List.pairwise_cons.1 sorted
    obtain ⟨firstKey, firstValue⟩ := first
    by_cases same : key = firstKey
    · have absent : (key, value) ∉ rest := by
        intro member
        exact ne_of_lt (below _ member) same.symm
      simp [find?, same, eq_comm] at absent ⊢
      intro inRest
      exact absurd inRest absent
    · simp [find?, same, ih sortedRest]

theorem mem_entries_iff (table : Table κ α) {key : κ} {value : α} :
    (key, value) ∈ table.entries ↔ table.get? key = some value :=
  (find?_eq_some_iff table.sorted).symm

theorem nodup_entries (table : Table κ α) : table.entries.Nodup :=
  table.sorted.imp fun below same => ne_of_lt below (congrArg Prod.fst same)

/-- Of sorted entries, those before one of them are those under smaller keys. -/
theorem find?_front {front back : List (κ × α)} {entry : κ × α}
    (sorted : Sorted (front ++ entry :: back)) (key : κ) :
    find? key front = if key < entry.1 then find? key (front ++ entry :: back) else none := by
  induction front with
  | nil =>
    have below := (List.pairwise_cons.1 sorted).1
    split
    · rename_i before
      refine (find?_eq_none_of_below (List.forall_mem_cons.2 ⟨before, ?_⟩)).symm
      exact fun other member => Ascending.trans before (below other member)
    · rfl
  | cons first front ih =>
    obtain ⟨below, sortedRest⟩ := List.pairwise_cons.1 sorted
    by_cases same : key = first.1
    · have before : key < entry.1 := same ▸ below entry (by simp)
      simp [find?, same, same ▸ before]
    · simp only [find?, List.cons_append, if_neg same]
      exact ih sortedRest

theorem find?_filter {keep : κ → Bool} {key : κ} (kept : keep key) (entries : List (κ × α)) :
    find? key (entries.filter fun entry => keep entry.1) = find? key entries := by
  induction entries with
  | nil => rfl
  | cons first rest ih =>
    by_cases same : key = first.1
    · rw [List.filter_cons_of_pos (same ▸ kept), find?, find?, if_pos same, if_pos same]
    · rw [find?, if_neg same, List.filter_cons]
      split
      · rw [find?, if_neg same, ih]
      · exact ih

theorem filterMap_entries {pick : κ × α → Option β} (key : κ) (table : Table κ α)
    (own : ∀ entry ∈ table.entries, entry.1 ≠ key → pick entry = none) :
    table.entries.filterMap pick =
      ((table.get? key).bind fun value => pick (key, value)).toList := by
  obtain ⟨entries, sorted⟩ := table
  simp only [get?] at own ⊢
  induction entries with
  | nil => rfl
  | cons first rest ih =>
    obtain ⟨below, sortedRest⟩ := List.pairwise_cons.1 sorted
    simp only [List.forall_mem_cons] at own
    rw [find?]
    by_cases same : key = first.1
    · have nothing : rest.filterMap pick = [] := by
        rw [List.filterMap_eq_nil_iff]
        intro entry member
        apply own.2 entry member
        rw [same]
        exact (ne_of_lt (below entry member)).symm
      rw [if_pos same, same, List.filterMap_cons, nothing]
      rcases picked : pick first with _ | value <;> simp [picked]
    · rw [if_neg same, List.filterMap_cons, own.1 (Ne.symm same)]
      exact ih sortedRest own.2

theorem ext_get? {a b : Table κ α} (alike : ∀ key, a.get? key = b.get? key) : a = b := by
  have members : ∀ entry, entry ∈ a.entries ↔ entry ∈ b.entries := by
    rintro ⟨key, value⟩
    rw [mem_entries_iff, mem_entries_iff, alike]
  have perm : a.entries.Perm b.entries :=
    (List.perm_ext_iff_of_nodup a.nodup_entries b.nodup_entries).2 members
  have same : a.entries = b.entries := by
    refine perm.eq_of_pairwise ?_ a.sorted b.sorted
    intro x y _ _ forward backward
    exact absurd (Ascending.trans forward backward) (Ascending.irrefl _)
  cases a
  cases b
  cases same
  rfl

theorem put_put (table : Table κ α) (key : κ) (first second : α) :
    (table.put key first).put key second = table.put key second := by
  apply ext_get?
  intro other
  by_cases same : other = key <;> simp [get?_put, same]

theorem put_comm (table : Table κ α) {key other : κ} (differ : key ≠ other) (value otherValue : α) :
    (table.put key value).put other otherValue = (table.put other otherValue).put key value := by
  apply ext_get?
  intro any
  simp only [get?_put]
  by_cases one : any = key
  · rw [if_neg (one ▸ differ), if_pos one, if_pos one]
  · rw [if_neg one, if_neg one]

theorem put_of_get? {table : Table κ α} {key : κ} {value : α}
    (there : table.get? key = some value) :
    table.put key value = table := by
  apply ext_get?
  intro other
  by_cases same : other = key
  · rw [same, get?_put_self, there]
  · rw [get?_put_of_ne table same]

theorem length_insert (key : κ) (value : α) {entries : List (κ × α)} (sorted : Sorted entries) :
    (insert key value entries).length =
      entries.length + if find? key entries = none then 1 else 0 := by
  induction entries with
  | nil => simp [insert, find?]
  | cons first rest ih =>
    obtain ⟨below, sortedRest⟩ := List.pairwise_cons.1 sorted
    unfold insert
    split
    · rename_i before
      have absent : find? key rest = none :=
        find?_eq_none_of_below fun entry member => Ascending.trans before (below entry member)
      simp [find?, ne_of_lt before, absent]
    split
    · rename_i same
      simp [find?, same]
    · rename_i differ
      simp only [List.length_cons, ih sortedRest, find?, if_neg differ]
      omega

theorem size_put (table : Table κ α) (key : κ) (value : α) :
    (table.put key value).size = table.size + if table.get? key = none then 1 else 0 :=
  length_insert key value table.sorted

def mapValues (convert : α → β) (table : Table κ α) : Table κ β where
  entries := table.entries.map fun entry => (entry.1, convert entry.2)
  sorted := by
    unfold Sorted
    rw [List.pairwise_map]
    exact table.sorted

theorem find?_map (convert : α → β) (key : κ) (entries : List (κ × α)) :
    find? key (entries.map fun entry => (entry.1, convert entry.2)) =
      (find? key entries).map convert := by
  induction entries with
  | nil => rfl
  | cons first rest ih => by_cases same : key = first.1 <;> simp [find?, same, ih]

@[simp] theorem get?_mapValues (convert : α → β) (table : Table κ α) (key : κ) :
    (table.mapValues convert).get? key = (table.get? key).map convert :=
  find?_map convert key table.entries

theorem mapValues_put (convert : α → β) (table : Table κ α) (key : κ) (value : α) :
    (table.put key value).mapValues convert =
      (table.mapValues convert).put key (convert value) := by
  apply ext_get?
  intro other
  by_cases same : other = key <;> simp [get?_put, same]

/-- The entries of one table, renamed and converted, entered into another. -/
def enterAll {ι : Type} (rename : ι → κ) (convert : β → α) (entries : List (ι × β))
    (table : Table κ α) : Table κ α :=
  entries.foldl (fun table entry => table.put (rename entry.1) (convert entry.2)) table

theorem get?_enterAll_of_ne {ι : Type} {rename : ι → κ} {convert : β → α} {entries : List (ι × β)}
    {key : κ} (other : ∀ entry ∈ entries, key ≠ rename entry.1) (table : Table κ α) :
    (enterAll rename convert entries table).get? key = table.get? key := by
  induction entries generalizing table with
  | nil => rfl
  | cons first rest ih =>
    simp only [List.forall_mem_cons] at other
    simp only [enterAll, List.foldl_cons]
    exact (ih other.2 _).trans (get?_put_of_ne table other.1 _)

/-- A key that is the new name of `old` answers what is entered for `old`. -/
theorem get?_enterAll {ι : Type} [Ascending ι] {rename : ι → κ}
    (injective : ∀ a b, rename a = rename b → a = b) {convert : β → α} {entries : List (ι × β)}
    (sorted : Sorted entries) (old : ι) (table : Table κ α) :
    (enterAll rename convert entries table).get? (rename old) =
      ((find? old entries).map convert).or (table.get? (rename old)) := by
  induction entries generalizing table with
  | nil => simp [enterAll, find?]
  | cons first rest ih =>
    obtain ⟨below, sortedRest⟩ := List.pairwise_cons.1 sorted
    simp only [enterAll, List.foldl_cons]
    have step := ih sortedRest (table.put (rename first.1) (convert first.2))
    simp only [enterAll] at step
    rw [step]
    by_cases same : old = first.1
    · have absent : find? first.1 rest = none := find?_eq_none_of_below below
      simp [find?, same, absent]
    · have differ : rename old ≠ rename first.1 := fun h => same (injective _ _ h)
      simp [find?, same, get?_put_of_ne _ differ]

theorem size_enterAll {ι : Type} [Ascending ι] {rename : ι → κ}
    (injective : ∀ a b, rename a = rename b → a = b) {convert : β → α} {entries : List (ι × β)}
    (sorted : Sorted entries) {table : Table κ α}
    (free : ∀ old, table.get? (rename old) = none) :
    (enterAll rename convert entries table).size = table.size + entries.length := by
  suffices general : ∀ table : Table κ α, (∀ entry ∈ entries, table.get? (rename entry.1) = none) →
      (enterAll rename convert entries table).size = table.size + entries.length from
    general table fun entry _ => free entry.1
  clear free table
  induction entries with
  | nil => intro table _; rfl
  | cons first rest ih =>
    intro table free
    obtain ⟨below, sortedRest⟩ := List.pairwise_cons.1 sorted
    simp only [List.forall_mem_cons] at free
    have stillFree : ∀ entry ∈ rest,
        (table.put (rename first.1) (convert first.2)).get? (rename entry.1) = none := by
      intro entry member
      have differ : rename entry.1 ≠ rename first.1 := by
        intro same
        exact ne_of_lt (below entry member) (injective _ _ same).symm
      rw [get?_put_of_ne table differ]
      exact free.2 entry member
    have step := ih sortedRest _ stillFree
    simp only [enterAll, List.foldl_cons] at step ⊢
    rw [step, size_put, if_pos free.1, List.length_cons]
    omega

/-- The order in which the entries of a table are entered makes no difference. -/
theorem enterAll_perm {ι : Type} [Ascending ι] {rename : ι → κ}
    (injective : ∀ a b, rename a = rename b → a = b) (convert : β → α) {entries : List (ι × β)}
    {source : Table ι β} (perm : entries.Perm source.entries) (table : Table κ α) :
    enterAll rename convert entries table = enterAll rename convert source.entries table := by
  refine perm.foldl_eq' ?_ table
  intro one first other second now
  by_cases same : one.1 = other.1
  · have one' := source.mem_entries_iff.1 (perm.subset first)
    have other' := source.mem_entries_iff.1 (perm.subset second)
    rw [same, other'] at one'
    have values := Option.some.inj one'
    rw [same, values]
  · exact put_comm now (same ∘ injective _ _) _ _

end Telemetry.Table
