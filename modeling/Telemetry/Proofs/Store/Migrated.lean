import Telemetry.Store.Migration

namespace Telemetry

namespace Schema

variable {schema before middle after : Schema}

def Kept {α : Type} (before after : Option (Table String α)) : Prop :=
  after = before ∨ before = none ∧ after = some .empty

theorem Kept.trans {α : Type} {before middle after : Option (Table String α)}
    (first : Kept before middle) (second : Kept middle after) : Kept before after := by
  rcases first with same | ⟨free, new⟩
  · rwa [← same]
  · rcases second with same | ⟨taken, -⟩
    · exact .inr ⟨free, same.trans new⟩
    · rw [new] at taken
      cases taken

theorem Kept.eq_some {α : Type} {before after : Option (Table String α)} (kept : Kept before after)
    {table : Table String α} (there : before = some table) : after = some table := by
  rcases kept with same | ⟨free, -⟩
  · exact same.trans there
  · rw [there] at free
    cases free

theorem Kept.eq_empty {α : Type} {after : Option (Table String α)} (kept : Kept none after)
    (there : after.isSome) : after = some .empty := by
  rcases kept with same | ⟨-, new⟩
  · rw [same] at there
    cases there
  · exact new

structure Extends (before after : Schema) : Prop where
  gauges : Kept before.gauges after.gauges
  counters : Kept before.counters after.counters

theorem Extends.refl (schema : Schema) : schema.Extends schema := ⟨.inl rfl, .inl rfl⟩

theorem Extends.trans (first : before.Extends middle) (second : middle.Extends after) :
    before.Extends after :=
  ⟨first.gauges.trans second.gauges, first.counters.trans second.counters⟩

theorem extends_create {kind : Kind} (absent : schema.has kind = false) :
    schema.Extends (schema.create kind) := by
  cases kind with
  | gauge =>
    have free : schema.gauges = none := by simpa [has] using absent
    exact ⟨.inr ⟨free, rfl⟩, .inl rfl⟩
  | counter =>
    have free : schema.counters = none := by simpa [has] using absent
    exact ⟨.inl rfl, .inr ⟨free, rfl⟩⟩

theorem has_create (schema : Schema) (kind other : Kind) :
    (schema.create kind).has other = (schema.has other || kind == other) := by
  cases kind <;> cases other <;> simp [create, has]

theorem has_drop (schema : Schema) (kind other : Kind) :
    (schema.drop kind).has other = (schema.has other && kind != other) := by
  cases kind <;> cases other <;> simp [drop, has]

theorem eq_empty (none : ∀ kind, schema.has kind = false) : schema = {} := by
  obtain ⟨gauges, counters⟩ := schema
  have noGauges : gauges.isSome = false := none .gauge
  have noCounters : counters.isSome = false := none .counter
  simp_all

end Schema

namespace Statement

variable {statement : Statement}

theorem execute_create (creates : statement.action = .create) (guarded : statement.guarded = true)
    (schema : Schema) :
    ∃ after, statement.execute schema = .ok after ∧ schema.Extends after ∧
      ∀ kind, after.has kind = (schema.has kind || statement.kind == kind) := by
  unfold execute
  cases there : schema.has statement.kind with
  | true =>
    simp only [creates, guarded, Bool.not_true, Bool.false_eq_true, if_false, if_true]
    refine ⟨schema, rfl, .refl schema, ?_⟩
    intro kind
    by_cases same : statement.kind = kind
    · rw [← same, there, Bool.true_or]
    · simp [same]
  | false =>
    simp only [creates, Bool.not_false, if_true]
    exact ⟨schema.create statement.kind, rfl, Schema.extends_create there,
      schema.has_create statement.kind⟩

theorem execute_drop (drops : statement.action = .drop) (guarded : statement.guarded = true)
    (schema : Schema) :
    ∃ after, statement.execute schema = .ok after ∧
      ∀ kind, after.has kind = (schema.has kind && statement.kind != kind) := by
  unfold execute
  cases there : schema.has statement.kind with
  | true =>
    simp only [drops, if_true]
    exact ⟨schema.drop statement.kind, rfl, schema.has_drop statement.kind⟩
  | false =>
    simp only [drops, guarded, Bool.false_eq_true, if_false, if_true]
    refine ⟨schema, rfl, ?_⟩
    intro kind
    by_cases same : statement.kind = kind
    · rw [← same, there, Bool.false_and]
    · simp [same]

end Statement

def Guarded (action : Action) (statements : List Statement) : Prop :=
  ∀ statement ∈ statements, statement.action = action ∧ statement.guarded = true

instance (action : Action) (statements : List Statement) : Decidable (Guarded action statements) :=
  inferInstanceAs (Decidable (∀ statement ∈ statements, _))

variable {statements : List Statement}

theorem executeAll_creating (guarded : Guarded .create statements) (schema : Schema) :
    ∃ after, executeAll statements schema = (.ok (), after) ∧ schema.Extends after ∧
      ∀ kind, after.has kind = (schema.has kind || statements.any (·.kind == kind)) := by
  induction statements generalizing schema with
  | nil => exact ⟨schema, rfl, .refl schema, by simp⟩
  | cons first rest ih =>
    simp only [Guarded, List.forall_mem_cons] at guarded
    obtain ⟨next, executed, added, has⟩ := Statement.execute_create guarded.1.1 guarded.1.2 schema
    obtain ⟨after, rests, more, all⟩ := ih guarded.2 next
    refine ⟨after, ?_, added.trans more, ?_⟩
    · rw [executeAll, executed]
      exact rests
    · intro kind
      rw [all, has, List.any_cons, Bool.or_assoc]

theorem executeAll_dropping (guarded : Guarded .drop statements) (schema : Schema) :
    ∃ after, executeAll statements schema = (.ok (), after) ∧
      ∀ kind, after.has kind = (schema.has kind && statements.all (·.kind != kind)) := by
  induction statements generalizing schema with
  | nil => exact ⟨schema, rfl, by simp⟩
  | cons first rest ih =>
    simp only [Guarded, List.forall_mem_cons] at guarded
    obtain ⟨next, executed, has⟩ := Statement.execute_drop guarded.1.1 guarded.1.2 schema
    obtain ⟨after, rests, all⟩ := ih guarded.2 next
    refine ⟨after, ?_, ?_⟩
    · rw [executeAll, executed]
      exact rests
    · intro kind
      rw [all, has, List.all_cons, Bool.and_assoc]

theorem executeAll_append (front back : List Statement) (schema : Schema) :
    executeAll (front ++ back) schema =
      match executeAll front schema with
      | (.ok (), schema) => executeAll back schema
      | (.error error, schema) => (.error error, schema) := by
  induction front generalizing schema with
  | nil => rfl
  | cons first rest ih =>
    simp only [List.cons_append, executeAll]
    cases first.execute schema with
    | ok next => exact ih next
    | error error => rfl

namespace Migration

theorem guarded_up : ∀ migration ∈ all, Guarded .create migration.up := by decide

theorem guarded_down : ∀ migration ∈ all, Guarded .drop migration.down := by decide

theorem up_creates (kind : Kind) :
    (all.flatMap up).any (·.kind == kind) = true := by cases kind <;> rfl

theorem down_drops (kind : Kind) : (all.reverse.flatMap down).all (·.kind != kind) = false := by
  cases kind <;> rfl

theorem guarded_flatMap {action : Action} {direction : Migration → List Statement}
    {migrations : List Migration}
    (each : ∀ migration ∈ migrations, Guarded action (direction migration)) :
    Guarded action (migrations.flatMap direction) := by
  intro statement member
  obtain ⟨migration, there, inside⟩ := List.mem_flatMap.1 member
  exact each migration there statement inside

end Migration

namespace DatabaseFile

variable {file : DatabaseFile} {migrations : List Migration}

def IsCurrent (file : DatabaseFile) : Prop := file.pending Migration.all = []

theorem recorded_of_isCurrent (current : file.IsCurrent) :
    file.recorded Migration.all = Migration.all := by
  apply List.filter_eq_self.2
  intro migration member
  have entered := List.filter_eq_nil_iff.1 current migration member
  simpa using entered

theorem known_up (known : file.Known migrations) (schema : Schema) :
    Known ⟨schema, file.applied ++ (file.pending migrations).map Migration.name⟩ migrations := by
  intro name member
  rcases List.mem_append.1 member with before | entered
  · exact known name before
  · obtain ⟨migration, inside, rfl⟩ := List.mem_map.1 entered
    exact List.mem_map_of_mem (List.mem_filter.1 inside).1

theorem isCurrent_up (file : DatabaseFile) (schema : Schema) :
    IsCurrent ⟨schema, file.applied ++ (file.pending Migration.all).map Migration.name⟩ := by
  apply List.filter_eq_nil_iff.2
  intro migration member
  have entered :
      migration.name ∈ file.applied ++ (file.pending Migration.all).map Migration.name := by
    by_cases before : migration.name ∈ file.applied
    · exact List.mem_append_left _ before
    · apply List.mem_append_right
      exact List.mem_map_of_mem (List.mem_filter.2 ⟨member, decide_eq_true before⟩)
  simpa only [decide_eq_true_eq, Decidable.not_not] using entered

/-- What becomes of a file that is migrated up: no table is changed, and all migrations are
recorded. -/
structure Upgrade (file after : DatabaseFile) : Prop where
  tables : file.schema.Extends after.schema
  whole : file.applied = [] → ∀ kind, after.schema.has kind = true
  known : after.Known Migration.all
  current : after.IsCurrent
  again : file.IsCurrent → after = file

variable {migrator : Migrator}

theorem up_of_known (lawful : migrator.Lawful) (known : file.Known Migration.all) :
    ∃ after, migrator.up Migration.all file = (.ok (), after) ∧ file.Upgrade after := by
  have guarded : Guarded .create ((file.pending Migration.all).flatMap Migration.up) :=
    Migration.guarded_flatMap fun migration member =>
      Migration.guarded_up migration (List.mem_filter.1 member).1
  obtain ⟨schema, executed, added, has⟩ := executeAll_creating guarded file.schema
  refine ⟨_, lawful.up Migration.all file schema known executed, added, ?_, known_up known schema,
    isCurrent_up file schema, ?_⟩
  · intro unrecorded kind
    have due : file.pending Migration.all = Migration.all := by simp [pending, unrecorded]
    rw [has, due, Migration.up_creates, Bool.or_true]
  · intro current
    rw [IsCurrent] at current
    rw [current] at executed
    cases executed
    rw [current, List.map_nil, List.append_nil]

theorem down_of_known (lawful : migrator.Lawful) (known : file.Known Migration.all) :
    ∃ schema, migrator.down Migration.all file = (.ok (), ⟨schema, []⟩) ∧
      (file.applied = [] → schema = file.schema) ∧ (file.IsCurrent → schema = {}) := by
  have guarded : Guarded .drop ((file.recorded Migration.all).reverse.flatMap Migration.down) :=
    Migration.guarded_flatMap fun migration member =>
      Migration.guarded_down migration (List.mem_filter.1 (List.mem_reverse.1 member)).1
  obtain ⟨schema, executed, has⟩ := executeAll_dropping guarded file.schema
  refine ⟨schema, lawful.down Migration.all file schema known executed, ?_, ?_⟩
  · intro unrecorded
    have nothing : file.recorded Migration.all = [] := by simp [recorded, unrecorded]
    rw [nothing] at executed
    cases executed
    rfl
  · intro current
    rw [recorded_of_isCurrent current] at has
    apply Schema.eq_empty
    intro kind
    rw [has, Migration.down_drops, Bool.and_false]

/-! ### Both tables -/

theorem tables_eq_some_iff {tables : Memory} : file.database.tables = some tables ↔
    file.schema.gauges = some tables.gauges ∧ file.schema.counters = some tables.counters := by
  obtain ⟨⟨gauges, counters⟩, applied⟩ := file
  obtain ⟨_, _⟩ := tables
  cases gauges <;> cases counters <;> simp [database]

/-- On a file that has both tables, and on a new one, migrating up is what it is for the database
alone. -/
theorem Upgrade.database {after : DatabaseFile} (upgrade : file.Upgrade after)
    (settled : file.database.tables.isSome ∨ file = {}) :
    after.database = file.database.migrateUp := by
  have whole : ∀ tables, after.database.tables = some tables → after.database = ⟨some tables⟩ :=
    fun tables there => congrArg Database.mk there
  rcases settled with there | new
  · obtain ⟨tables, there⟩ := Option.isSome_iff_exists.1 there
    have parts := tables_eq_some_iff.1 there
    have kept : after.database.tables = some tables :=
      tables_eq_some_iff.2
        ⟨upgrade.tables.gauges.eq_some parts.1, upgrade.tables.counters.eq_some parts.2⟩
    rw [whole tables kept, Database.migrateUp, there, Option.getD_some]
  · have gauges := upgrade.tables.gauges
    have counters := upgrade.tables.counters
    rw [new] at gauges counters
    have created := upgrade.whole (by rw [new])
    have empty : after.database.tables = some {} :=
      tables_eq_some_iff.2 ⟨gauges.eq_empty (created .gauge), counters.eq_empty (created .counter)⟩
    rw [whole {} empty, new]
    rfl

theorem Upgrade.database_of_tables {after : DatabaseFile} (upgrade : file.Upgrade after)
    (there : file.database.tables.isSome) : after.database = file.database := by
  obtain ⟨tables, found⟩ := Option.isSome_iff_exists.1 there
  rw [upgrade.database (.inl there), Database.migrateUp, found]
  exact congrArg Database.mk found.symm

/-! ### Migrating step by step -/

variable {direction : Migration → List Statement} {enter : String → List String → List String}

theorem migrate_of_executed {schema : Schema}
    (executed : executeAll (migrations.flatMap direction) file.schema = (.ok (), schema)) :
    migrate direction enter migrations file =
      (.ok (),
        ⟨schema,
          migrations.foldl (fun names migration => enter migration.name names) file.applied⟩) := by
  induction migrations generalizing file with
  | nil =>
    cases executed
    rfl
  | cons first rest ih =>
    rw [List.flatMap_cons, executeAll_append] at executed
    rw [migrate]
    rcases started : executeAll (direction first) file.schema with ⟨error | ⟨⟩, next⟩
    · rw [started] at executed
      cases executed
    · rw [started] at executed
      exact @ih ⟨next, enter first.name file.applied⟩ executed

theorem foldl_entered (names : List String) :
    migrations.foldl (fun names migration => names ++ [migration.name]) names =
      names ++ migrations.map Migration.name := by
  induction migrations generalizing names with
  | nil => exact (List.append_nil names).symm
  | cons first rest ih =>
    rw [List.foldl_cons, ih, List.map_cons, List.append_assoc, List.singleton_append]

theorem mem_foldl_removed {name : String} {names : List String}
    (left : name ∈ migrations.foldl (fun names migration => names.filter (· ≠ migration.name))
      names) :
    name ∈ names ∧ ∀ migration ∈ migrations, migration.name ≠ name := by
  induction migrations generalizing names with
  | nil => exact ⟨left, nofun⟩
  | cons first rest ih =>
    obtain ⟨inside, others⟩ := ih left
    obtain ⟨before, differ⟩ := List.mem_filter.1 inside
    exact ⟨before, List.forall_mem_cons.2 ⟨(of_decide_eq_true differ).symm, others⟩⟩

theorem foldl_removed (known : file.Known migrations) :
    (file.recorded migrations).reverse.foldl
      (fun names migration => names.filter (· ≠ migration.name)) file.applied =
      [] := by
  apply List.eq_nil_iff_forall_not_mem.2
  intro name left
  obtain ⟨inside, others⟩ := mem_foldl_removed left
  obtain ⟨migration, member, same⟩ := List.mem_map.1 (known name inside)
  have recorded : migration ∈ file.recorded migrations :=
    List.mem_filter.2 ⟨member, decide_eq_true (same ▸ inside)⟩
  exact others migration (List.mem_reverse.2 recorded) same

end DatabaseFile

theorem Migrator.stepwise_lawful : stepwise.Lawful where
  up migrations file schema known executed := by
    simp only [stepwise, if_pos known, DatabaseFile.migrate_of_executed executed,
      DatabaseFile.foldl_entered]
  down migrations file schema known executed := by
    simp only [stepwise, if_pos known, DatabaseFile.migrate_of_executed executed,
      DatabaseFile.foldl_removed known]

end Telemetry
