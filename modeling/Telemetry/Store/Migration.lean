import Telemetry.Store.Database

/-!
The file that a database lies in, and the migrations that make its tables. A migration executes one
statement on a table after the other, in either direction. The file keeps a record of the migrations
that are applied; a migrator goes by it.
-/
namespace Telemetry

structure Schema where
  gauges : Option (Table String Binary64) := none
  counters : Option (Table String Int64) := none

namespace Schema

def has (schema : Schema) : Kind → Bool
  | .gauge => schema.gauges.isSome
  | .counter => schema.counters.isSome

def create (schema : Schema) : Kind → Schema
  | .gauge => { schema with gauges := some .empty }
  | .counter => { schema with counters := some .empty }

def drop (schema : Schema) : Kind → Schema
  | .gauge => { schema with gauges := none }
  | .counter => { schema with counters := none }

end Schema

inductive Action where
  | create
  | drop
  deriving DecidableEq, Repr

/-- A statement on the table of a kind. Creating a table that is there and dropping one that is not
fails, unless the statement is guarded; then nothing is done. -/
structure Statement where
  action : Action
  kind : Kind
  guarded : Bool
  deriving DecidableEq, Repr

def Statement.execute (statement : Statement) (schema : Schema) : Except Database.Error Schema :=
  let due := match statement.action with
    | .create => !schema.has statement.kind
    | .drop => schema.has statement.kind
  if due then
    match statement.action with
    | .create => .ok (schema.create statement.kind)
    | .drop => .ok (schema.drop statement.kind)
  else if statement.guarded then .ok schema
  else .error .other

/-- Executes statements up to the first that fails; what those before it did stays. -/
def executeAll : List Statement → Schema → Except Database.Error Unit × Schema
  | [], schema => (.ok (), schema)
  | statement :: rest, schema =>
    match statement.execute schema with
    | .ok schema => executeAll rest schema
    | .error error => (.error error, schema)

structure Migration where
  name : String
  up : List Statement
  down : List Statement
  deriving DecidableEq, Repr

namespace Migration

def metricTables : Migration where
  name := "m001_metric_tables"
  up := [⟨.create, .gauge, true⟩, ⟨.create, .counter, true⟩]
  down := [⟨.drop, .counter, true⟩, ⟨.drop, .gauge, true⟩]

def all : List Migration := [metricTables]

end Migration

/-- The tables of a file, and the names of the migrations that are applied to it. A new file has
none. -/
structure DatabaseFile where
  schema : Schema := {}
  applied : List String := []

namespace DatabaseFile

def database (file : DatabaseFile) : Database :=
  match file.schema.gauges, file.schema.counters with
  | some gauges, some counters => ⟨some ⟨gauges, counters⟩⟩
  | _, _ => ⟨none⟩

def keep (file : DatabaseFile) (database : Database) : DatabaseFile :=
  match database.tables with
  | some tables => { file with schema := ⟨some tables.gauges, some tables.counters⟩ }
  | none => file

def run {α : Type} (operation : Database → α × Database) (file : DatabaseFile) : α × DatabaseFile :=
  (operation file.database).map id file.keep

def storage (schedule : Retry.Schedule) : Storage DatabaseFile :=
  let tables := Database.storage schedule
  { backend := tables.backend
    update := fun m => run (tables.update m)
    updateBatch := fun ms => run (tables.updateBatch ms)
    get := fun key file => tables.get key file.database
    all := fun file => tables.all file.database
    ping := fun file => tables.ping file.database }

def pending (file : DatabaseFile) (migrations : List Migration) : List Migration :=
  migrations.filter fun migration => migration.name ∉ file.applied

def recorded (file : DatabaseFile) (migrations : List Migration) : List Migration :=
  migrations.filter fun migration => migration.name ∈ file.applied

def Known (file : DatabaseFile) (migrations : List Migration) : Prop :=
  ∀ name ∈ file.applied, name ∈ migrations.map Migration.name

instance (file : DatabaseFile) (migrations : List Migration) : Decidable (file.Known migrations) :=
  inferInstanceAs (Decidable (∀ name ∈ file.applied, _))

/-- Executes the statements of migrations, one migration after the other, and enters each of them
into the record. -/
def migrate (statements : Migration → List Statement) (enter : String → List String → List String) :
    List Migration → DatabaseFile → Except Database.Error Unit × DatabaseFile
  | [], file => (.ok (), file)
  | migration :: rest, file =>
    match executeAll (statements migration) file.schema with
    | (.ok (), schema) => migrate statements enter rest ⟨schema, enter migration.name file.applied⟩
    | (.error error, schema) => (.error error, { file with schema })

end DatabaseFile

structure Migrator where
  up : List Migration → DatabaseFile → Except Database.Error Unit × DatabaseFile
  down : List Migration → DatabaseFile → Except Database.Error Unit × DatabaseFile

namespace Migrator

/-- A migrator runs the migrations that are not recorded, in order, and then has them recorded; or
those that are, in the opposite order, and then has none recorded. What it does where a statement
fails, or with a record of other migrations, is left open. -/
structure Lawful (migrator : Migrator) : Prop where
  up : ∀ (migrations : List Migration) (file : DatabaseFile) (schema : Schema),
    file.Known migrations →
    executeAll ((file.pending migrations).flatMap Migration.up) file.schema = (.ok (), schema) →
      migrator.up migrations file =
        (.ok (), ⟨schema, file.applied ++ (file.pending migrations).map Migration.name⟩)
  down : ∀ (migrations : List Migration) (file : DatabaseFile) (schema : Schema),
    file.Known migrations →
    executeAll ((file.recorded migrations).reverse.flatMap Migration.down) file.schema =
      (.ok (), schema) →
      migrator.down migrations file = (.ok (), ⟨schema, []⟩)

/-- A migrator that stops at the first statement that fails, and refuses a record of other
migrations. -/
def stepwise : Migrator where
  up migrations file :=
    if file.Known migrations then
      DatabaseFile.migrate Migration.up (fun name names => names ++ [name])
        (file.pending migrations) file
    else (.error .other, file)
  down migrations file :=
    if file.Known migrations then
      DatabaseFile.migrate Migration.down (fun name names => names.filter (· ≠ name))
        (file.recorded migrations).reverse file
    else (.error .other, file)

end Migrator
end Telemetry
