import Telemetry.Retry
import Telemetry.Store.Guard
import Telemetry.Store.Memory

/-!
The relational store: a table of gauges and one of counters, both of which a migration creates or
drops. Every access is retried when the connection is lost; a batch is a transaction, of which an
attempt that ends early leaves nothing.
-/
namespace Telemetry

/-- The two tables, if they exist. -/
structure Database where
  tables : Option Memory := none
  deriving Inhabited

namespace Database

/-- An error of the database itself: the connection, or anything else. -/
inductive Error where
  | connection
  | other
  deriving DecidableEq, Repr

def Error.isTransient : Error → Bool
  | connection => true
  | other => false

def migrateUp (database : Database) : Database := ⟨some (database.tables.getD {})⟩

def migrateDown (_ : Database) : Database := ⟨none⟩

/-- Inserts a row or updates the one with its name; `false` when the guard refuses the update. A
gauge must be a number, and loses the sign of zero. -/
def upsert (m : Metric) (tables : Memory) : Except Error (Bool × Memory) :=
  match m.value with
  | .gauge reading =>
    if reading.isNaN then .error .other
    else .ok (true, { tables with gauges := tables.gauges.put m.id reading.dropZeroSign })
  | .counter delta =>
    match tables.counters.get? m.id with
    | none => .ok (true, { tables with counters := tables.counters.put m.id delta })
    | some total =>
      match Guard.fits.eval total delta, Guard.newTotal.eval total delta with
      | some true, some sum =>
        .ok (true, { tables with counters := tables.counters.put m.id sum })
      | some false, _ => .ok (false, tables)
      | _, _ => .error .other

/-- Upserts in order up to the first that is refused, whose id is answered. The connection may be
lost after a number of them, be it only before the commit or the rollback that follows. -/
def upsertAll : Option Nat → List Metric → Memory → Except Error (Option String × Memory)
  | some 0, _, _ => .error .connection
  | _, [], tables => .ok (none, tables)
  | lost, m :: rest, tables =>
    match upsert m tables with
    | .error error => .error error
    | .ok (false, tables) => if lost = some 1 then .error .connection else .ok (some m.id, tables)
    | .ok (true, tables) => upsertAll (lost.map (· - 1)) rest tables

/-- One attempt at a transaction: the id of the metric that was refused, if any. Only a commit
changes the database. A single statement is a transaction of its own. -/
def transact (lost : Option Nat) (ms : List Metric) (database : Database) :
    Except Error (Option String) × Database :=
  match database.tables with
  | none =>
    if lost = some 0 then (.error .connection, database)
    else if ms.isEmpty then (.ok none, database)
    else (.error .other, database)
  | some tables =>
    match upsertAll lost ms tables with
    | .error error => (.error error, database)
    | .ok (some id, _) => (.ok (some id), database)
    | .ok (none, tables) => (.ok none, ⟨some tables⟩)

def faultOf : Retry.Failure Error → StoreFault
  | .exhausted attempts _ => .unavailable attempts
  | .permanent _ => .database

structure Write where
  result : Except StoreFault Unit
  attempts : Nat
  slept : List Nat
  database : Database

/-- Runs the transaction of some metrics under a schedule; `lost` tells for each attempt after how
many upserts the connection is lost, if it is. -/
def write (schedule : Retry.Schedule) (lost : Nat → Option Nat) (ms : List Metric)
    (database : Database) : Write :=
  match ms.mapM requireId with
  | .error fault => ⟨.error fault, 0, [], database⟩
  | .ok _ =>
    let outcome := Retry.run schedule Error.isTransient
      (fun attempt => transact (lost attempt) ms) database
    let result := match outcome.result with
      | .ok none => .ok ()
      | .ok (some id) => .error (.overflow id)
      | .error failure => .error (faultOf failure)
    ⟨result, outcome.attempts, outcome.slept, outcome.state⟩

def read {α : Type} (database : Database) (f : Memory → Except StoreFault α) :
    Except StoreFault α :=
  match database.tables with
  | none => .error .database
  | some tables => f tables

def storage (schedule : Retry.Schedule) : Storage Database where
  backend := "database"
  update m database :=
    let write := write schedule (fun _ => none) [m] database
    (write.result, write.database)
  updateBatch ms database :=
    let write := write schedule (fun _ => none) ms database
    (write.result, write.database)
  get key database := database.read (Memory.get key)
  all database := database.read fun tables => .ok tables.contents
  ping _ := .ok ()

/-- Where a connection is lost. The attempts at each access are counted from one, and a write is
lost after a number of upserts. -/
structure Link where
  write : Nat → Option Nat
  read : Kind → Nat → Bool
  ping : Nat → Bool

def Link.steady : Link := ⟨fun _ => none, fun _ _ => false, fun _ => false⟩

def ask {α : Type} (schedule : Retry.Schedule) (lost : Nat → Bool) (answer : Except Error α) :
    Except StoreFault α :=
  let outcome := Retry.run schedule Error.isTransient
    (fun attempt state => (if lost attempt then .error .connection else answer, state)) ()
  outcome.result.mapError faultOf

def rows (database : Database) : Except Error Memory :=
  match database.tables with
  | none => .error .other
  | some tables => .ok tables

/-- The database over a connection that may be lost. The two tables are listed one after the other.
-/
def overLink (schedule : Retry.Schedule) (link : Link) : Storage Database where
  backend := "database"
  update m database :=
    let write := write schedule link.write [m] database
    (write.result, write.database)
  updateBatch ms database :=
    let write := write schedule link.write ms database
    (write.result, write.database)
  get key database := do Memory.get key (← ask schedule (link.read key.kind) database.rows)
  all database := do
    let gauges ← ask schedule (link.read .gauge) database.rows
    let counters ← ask schedule (link.read .counter) database.rows
    return Memory.contents ⟨gauges.gauges, counters.counters⟩
  ping _ := ask schedule link.ping (.ok ())

end Database
end Telemetry
