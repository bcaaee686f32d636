import Telemetry.Proofs.Store.Connected
import Telemetry.Proofs.Store.Migrated
import Telemetry.Proofs.Store.Relational

/-!
A database over any number of connections, one after the other. A storage is dropped and connected
again to the same file, with its migrations run each time, and in between further connections
migrate the file up and down. Main statements: reconnecting goes unnoticed, whatever is done and
wherever it is put in between; migrating up changes no table, and migrating down and up makes the
file a new one.
-/
namespace Telemetry

namespace Database

variable {database : Database} {ms : List Metric} {tables : Memory} {error : Error}

theorem upsert_error {m : Metric} (failed : upsert m tables = .error error) : error = .other := by
  unfold upsert at failed
  split at failed
  · split at failed
    · cases failed
      rfl
    · cases failed
  · split at failed
    · cases failed
    · split at failed
      · cases failed
      · cases failed
      · cases failed
        rfl

theorem upsertAll_error (failed : upsertAll none ms tables = .error error) : error = .other := by
  induction ms generalizing tables with
  | nil => cases failed
  | cons m rest ih =>
    rcases step : upsert m tables with reason | ⟨accepted, next⟩
    · simp only [upsertAll, step] at failed
      cases failed
      exact upsert_error step
    · cases accepted with
      | true =>
        simp only [upsertAll, step] at failed
        exact ih failed
      | false =>
        simp only [upsertAll, step] at failed
        cases failed

theorem transact_error (failed : (transact none ms database).1 = .error error) :
    error.isTransient = false := by
  suffices lasting : error = .other by
    rw [lasting]
    rfl
  obtain ⟨there⟩ := database
  cases there with
  | none =>
    cases ms with
    | nil => cases failed
    | cons m rest =>
      cases failed
      rfl
  | some tables =>
    rcases upserted : upsertAll none ms tables with reason | ⟨refused, next⟩
    · simp only [transact, upserted] at failed
      cases failed
      exact upsertAll_error upserted
    · cases refused <;> simp only [transact, upserted] at failed <;> cases failed

theorem run_transact (schedule : Retry.Schedule) (ms : List Metric) (database : Database) :
    Retry.run schedule Error.isTransient (fun _ => transact none ms) database =
      ⟨(transact none ms database).1.mapError .permanent, 1, [], (transact none ms database).2⟩ :=
  Retry.runFrom_of_lasting rfl (fun _ failed => transact_error failed) schedule

theorem storage_eq (schedule : Retry.Schedule) : storage schedule = storage [] := by
  simp only [storage, write, run_transact]

theorem tables_perform (schedule : Retry.Schedule) (operation : Operation)
    (there : database.tables.isSome) :
    ((storage schedule).perform operation database).2.tables.isSome := by
  obtain ⟨tables⟩ := database
  obtain ⟨tables, rfl⟩ := Option.isSome_iff_exists.1 there
  have written : ∀ {ms : List Metric} {outcome}, Writes ms tables outcome →
      outcome.2.tables.isSome := by
    intro ms outcome writes
    cases writes <;> rfl
  cases operation with
  | write write =>
    cases write with
    | update m => exact written (update_cases schedule m tables)
    | batch ms => exact written (updateBatch_cases schedule ms tables)
  | get key => rfl
  | all => rfl

end Database

namespace DatabaseFile

variable {database : Database}

theorem keep_database (file : DatabaseFile) : file.keep file.database = file := by
  obtain ⟨⟨gauges, counters⟩, applied⟩ := file
  cases gauges <;> cases counters <;> rfl

theorem database_keep (file : DatabaseFile) (there : database.tables.isSome) :
    (file.keep database).database = database := by
  obtain ⟨tables⟩ := database
  cases tables with
  | none => cases there
  | some tables => rfl

theorem applied_keep (file : DatabaseFile) (database : Database) :
    (file.keep database).applied = file.applied := by
  unfold keep
  split <;> rfl

theorem storage_eq (schedule : Retry.Schedule) : storage schedule = storage [] := by
  rw [storage, Database.storage_eq schedule, storage]

theorem perform_storage (schedule : Retry.Schedule) (operation : Operation) (file : DatabaseFile) :
    (storage schedule).perform operation file =
      run ((Database.storage schedule).perform operation) file := by
  cases operation with
  | write write => cases write <;> rfl
  | get key => exact congrArg (Prod.mk _) file.keep_database.symm
  | all => exact congrArg (Prod.mk _) file.keep_database.symm

end DatabaseFile

structure Connecting where
  schedule : Retry.Schedule
  dsn : String
  files : Files

/-- The delays of the storage, if one is connected, and the file. -/
structure Session where
  schedule : Option Retry.Schedule
  file : DatabaseFile

namespace Session

/-- What happens in a session: its storage is used, or dropped and connected again, or another
connection runs the migrations up or down. -/
inductive Event where
  | perform (operation : Operation)
  | ping
  | reconnect (connecting : Connecting)
  | migrateUp
  | migrateDown

def Event.isUse : Event → Bool
  | perform _ | ping => true
  | reconnect _ | migrateUp | migrateDown => false

/-- Whatever is done but migrating down; connecting is to the file at a path. -/
def Event.Keeps (path : String) : Event → Prop
  | reconnect connecting => Dsn.Opens connecting.dsn path connecting.files
  | migrateDown => False
  | perform _ | ping | migrateUp => True

inductive Reply where
  | answered (answer : Answer)
  | pinged (result : Except StoreFault Unit)
  | connected (result : Except StoreFault Unit)
  | migrated (result : Except Database.Error Unit)
  | absent

def Reply.isUse : Reply → Bool
  | answered _ | pinged _ => true
  | connected _ | migrated _ | absent => false

def Reply.Succeeds : Reply → Prop
  | answered _ | pinged _ => True
  | connected result => result = .ok ()
  | migrated result => result = .ok ()
  | absent => False

def ask (session : Session) (use : Storage DatabaseFile → DatabaseFile → Reply × DatabaseFile) :
    Reply × Session :=
  match session.schedule with
  | some schedule => (use (DatabaseFile.storage schedule) session.file).map id fun file =>
    { session with file }
  | none => (.absent, session)

def step (migrator : Migrator) : Event → Session → Reply × Session
  | .perform operation, session => session.ask fun storage file =>
    (storage.perform operation file).map .answered id
  | .ping, session => session.ask fun storage file => (.pinged (storage.ping file), file)
  | .reconnect connecting, session =>
    let connection :=
      Dsn.connect connecting.schedule connecting.dsn connecting.files session.file migrator
    match connection.result with
    | .ok _ => (.connected (.ok ()), ⟨some connecting.schedule, connection.file⟩)
    | .error fault => (.connected (.error fault), ⟨none, connection.file⟩)
  | .migrateUp, session =>
    (migrator.up Migration.all session.file).map .migrated fun file => { session with file }
  | .migrateDown, session =>
    (migrator.down Migration.all session.file).map .migrated fun file => { session with file }

variable {session other new : Session} {migrator : Migrator} {path : String} {event : Event}

theorem step_perform (migrator : Migrator) (operation : Operation) (schedule : Retry.Schedule)
    (file : DatabaseFile) :
    step migrator (.perform operation) ⟨some schedule, file⟩ =
      (.answered ((Database.storage []).perform operation file.database).1,
        ⟨some schedule, file.keep ((Database.storage []).perform operation file.database).2⟩) := by
  simp only [step, ask, DatabaseFile.perform_storage, Database.storage_eq schedule]
  rfl

theorem step_reconnect {connecting : Connecting} {after : DatabaseFile} (session : Session)
    (connected : Dsn.connect connecting.schedule connecting.dsn connecting.files session.file
      migrator =
      ⟨.ok after.database, after, []⟩) :
    step migrator (.reconnect connecting) session =
      (.connected (.ok ()), ⟨some connecting.schedule, after⟩) := by
  simp only [step, connected]

theorem step_migrateUp {after : DatabaseFile}
    (migrated : migrator.up Migration.all session.file = (.ok (), after)) :
    step migrator .migrateUp session = (.migrated (.ok ()), { session with file := after }) := by
  rw [step, migrated]
  rfl

theorem step_migrateDown {after : DatabaseFile}
    (migrated : migrator.down Migration.all session.file = (.ok (), after)) :
    step migrator .migrateDown session = (.migrated (.ok ()), { session with file := after }) := by
  rw [step, migrated]
  rfl

/-- The storage is connected and finds its tables, and nothing is recorded but the migrations of the
database. -/
structure Serves (session : Session) : Prop where
  connected : session.schedule.isSome
  tables : session.file.database.tables.isSome
  known : session.file.Known Migration.all

/-- What becomes of a session that serves, unless it is migrated down: its tables are used, or its
file is migrated up. -/
inductive Goes (session : Session) (event : Event) : Reply × Session → Prop
  | used {reply : Reply} {database : Database} (use : event.isUse = true)
      (shown : reply.isUse = true) (tables : database.tables.isSome) :
      Goes session event (reply, { session with file := session.file.keep database })
  | upgraded {reply : Reply} {schedule : Retry.Schedule} {after : DatabaseFile}
      (aside : event.isUse = false) (hidden : reply.isUse = false) (succeeds : reply.Succeeds)
      (upgrade : session.file.Upgrade after) :
      Goes session event (reply, ⟨some schedule, after⟩)

theorem step_goes (lawful : migrator.Lawful) (keeps : event.Keeps path) (serves : session.Serves) :
    Goes session event (step migrator event session) := by
  obtain ⟨schedule, file⟩ := session
  obtain ⟨schedule, rfl⟩ := Option.isSome_iff_exists.1 serves.connected
  obtain ⟨after, migrated, upgrade⟩ := DatabaseFile.up_of_known lawful serves.known
  cases event with
  | perform operation =>
    rw [step_perform]
    exact .used rfl rfl (Database.tables_perform [] operation serves.tables)
  | ping =>
    have whole :=
      @Goes.used ⟨some schedule, file⟩ .ping (.pinged (.ok ())) file.database rfl rfl serves.tables
    rwa [DatabaseFile.keep_database] at whole
  | reconnect connecting =>
    rw [step_reconnect _ (Dsn.connect_of_opens keeps connecting.schedule migrated)]
    exact .upgraded rfl rfl rfl upgrade
  | migrateUp =>
    rw [step_migrateUp migrated]
    exact .upgraded rfl rfl rfl upgrade
  | migrateDown => cases keeps

/-- No event but migrating down fails or takes the tables away. -/
theorem Goes.serves {outcome : Reply × Session} (goes : Goes session event outcome)
    (serves : session.Serves) :
    outcome.1.Succeeds ∧ outcome.2.Serves := by
  cases goes with
  | @used reply database _ shown tables =>
    refine ⟨?_, serves.connected, ?_, ?_⟩
    · cases reply with
      | answered _ | pinged _ => trivial
      | connected _ | migrated _ | absent => cases shown
    · rwa [session.file.database_keep tables]
    · intro name
      rw [DatabaseFile.applied_keep]
      exact serves.known name
  | upgraded _ _ succeeds upgrade =>
    have same := upgrade.database_of_tables serves.tables
    exact ⟨succeeds, rfl, same ▸ serves.tables, upgrade.known⟩

theorem Goes.current {outcome : Reply × Session} (goes : Goes session event outcome)
    (current : session.file.IsCurrent) : outcome.2.file.IsCurrent := by
  cases goes with
  | used _ _ _ =>
    rw [DatabaseFile.IsCurrent, DatabaseFile.pending, DatabaseFile.applied_keep]
    exact current
  | upgraded _ _ _ upgrade => exact upgrade.current

theorem Goes.aside {outcome : Reply × Session} (goes : Goes session event outcome)
    (aside : event.isUse = false) (serves : session.Serves) :
    outcome.1.isUse = false ∧ outcome.2.file.database = session.file.database := by
  cases goes with
  | used use _ _ =>
    rw [use] at aside
    cases aside
  | upgraded _ hidden _ upgrade => exact ⟨hidden, upgrade.database_of_tables serves.tables⟩

structure Alike (session other : Session) : Prop where
  serves : session.Serves
  connected : other.schedule.isSome
  same : session.file.database = other.file.database

theorem step_use (use : event.isUse = true) (alike : session.Alike other) :
    (step migrator event session).1 = (step migrator event other).1 ∧
      (step migrator event session).1.isUse = true ∧
      (step migrator event other).2.schedule.isSome ∧
      (step migrator event session).2.file.database =
        (step migrator event other).2.file.database := by
  obtain ⟨⟨connected, tables, known⟩, otherConnected, same⟩ := alike
  obtain ⟨schedule, file⟩ := session
  obtain ⟨otherSchedule, otherFile⟩ := other
  obtain ⟨schedule, rfl⟩ := Option.isSome_iff_exists.1 connected
  obtain ⟨otherSchedule, rfl⟩ := Option.isSome_iff_exists.1 otherConnected
  cases event with
  | perform operation =>
    have there := Database.tables_perform [] operation tables
    simp only [step_perform] at same ⊢
    rw [← same]
    exact ⟨rfl, rfl, rfl, by rw [file.database_keep there, otherFile.database_keep there]⟩
  | ping => exact ⟨rfl, rfl, rfl, same⟩
  | reconnect _ | migrateUp | migrateDown => cases use

/-- A run is answered as if its storage had only been used, and leaves the same tables; nothing in
between fails, and the session goes on as before. -/
structure Unnoticed (migrator : Migrator) (events : List Event) (session : Session) : Prop where
  answers : (runAll (step migrator) events session).1.filter Reply.isUse =
    (runAll (step migrator) (events.filter Event.isUse) session).1
  contents : (runAll (step migrator) events session).2.file.database =
    (runAll (step migrator) (events.filter Event.isUse) session).2.file.database
  succeed : ∀ reply ∈ (runAll (step migrator) events session).1, reply.Succeeds
  serves : (runAll (step migrator) events session).2.Serves
  current : session.file.IsCurrent → (runAll (step migrator) events session).2.file.IsCurrent

theorem unnoticed (lawful : migrator.Lawful) {events : List Event}
    (keep : ∀ event ∈ events, event.Keeps path) (serves : session.Serves) :
    Unnoticed migrator events session := by
  have goes : ∀ event ∈ events, ∀ state, Serves state →
      Goes state event (step migrator event state) :=
    fun event member state => step_goes lawful (keep event member)
  have stays : ∀ event ∈ events, ∀ state, Serves state →
      (step migrator event state).1.Succeeds ∧ (step migrator event state).2.Serves :=
    fun event member state serves => (goes event member state serves).serves serves
  have apart : (runAll (step migrator) events session).1.filter Reply.isUse =
        (runAll (step migrator) (events.filter Event.isUse) session).1 ∧
      Alike (runAll (step migrator) events session).2
        (runAll (step migrator) (events.filter Event.isUse) session).2 := by
    refine runAll_filter ?_ ?_ ⟨serves, serves.connected, rfl⟩
    · intro event member use state other alike
      obtain ⟨sameReply, isUse, connected, same⟩ := step_use use alike
      exact ⟨sameReply, isUse, (stays event member state alike.serves).2, connected, same⟩
    · intro event member aside state other alike
      obtain ⟨isAside, same⟩ := (goes event member state alike.serves).aside aside alike.serves
      exact ⟨isAside, (stays event member state alike.serves).2, alike.connected,
        same.trans alike.same⟩
  refine ⟨apart.1, apart.2.same, runAll_answers stays serves, apart.2.serves, ?_⟩
  intro current
  refine (runAll_keeps (P := fun state : Session => state.Serves ∧ state.file.IsCurrent) ?_
    ⟨serves, current⟩).2
  intro event member state both
  exact ⟨(stays event member state both.1).2, (goes event member state both.1).current both.2⟩

/-! ### New files -/

structure Shares (session other : Session) : Prop where
  connected : session.schedule.isSome = other.schedule.isSome
  file : session.file = other.file

theorem ask_shares (use : Storage DatabaseFile → DatabaseFile → Reply × DatabaseFile)
    (shares : session.Shares other) :
    (session.ask use).1 = (other.ask use).1 ∧ Shares (session.ask use).2 (other.ask use).2 := by
  obtain ⟨schedule, file⟩ := session
  obtain ⟨otherSchedule, otherFile⟩ := other
  obtain ⟨connected, rfl⟩ := shares
  rcases schedule with _ | schedule <;> rcases otherSchedule with _ | otherSchedule
  · exact ⟨rfl, rfl, rfl⟩
  · cases connected
  · cases connected
  · simp only [ask, DatabaseFile.storage_eq schedule, DatabaseFile.storage_eq otherSchedule]
    exact ⟨rfl, rfl, rfl⟩

/-- What a session answers and leaves depends on the file alone, the delays being of no matter. -/
theorem step_shares (migrator : Migrator) (event : Event) (shares : session.Shares other) :
    (step migrator event session).1 = (step migrator event other).1 ∧
      Shares (step migrator event session).2 (step migrator event other).2 := by
  obtain ⟨schedule, file⟩ := session
  obtain ⟨otherSchedule, otherFile⟩ := other
  obtain ⟨connected, rfl⟩ := shares
  cases event with
  | perform operation => exact ask_shares _ ⟨connected, rfl⟩
  | ping => exact ask_shares _ ⟨connected, rfl⟩
  | reconnect connecting => exact ⟨rfl, rfl, rfl⟩
  | migrateUp => exact ⟨rfl, connected, rfl⟩
  | migrateDown => exact ⟨rfl, connected, rfl⟩

/-- Migrating down and up brings a session to where a new one is, whatever follows. -/
structure Renews (migrator : Migrator) (session new : Session) : Prop where
  answers : ∀ events, (runAll (step migrator) (.migrateDown :: .migrateUp :: events) session).1 =
    .migrated (.ok ()) :: .migrated (.ok ()) :: (runAll (step migrator) events new).1
  contents : ∀ events,
    (runAll (step migrator) (.migrateDown :: .migrateUp :: events) session).2.file =
      (runAll (step migrator) events new).2.file

theorem renews (lawful : migrator.Lawful)
    (connected : session.schedule.isSome = new.schedule.isSome)
    (known : session.file.Known Migration.all) (current : session.file.IsCurrent)
    (migrated : migrator.up Migration.all {} = (.ok (), new.file)) :
    Renews migrator session new := by
  obtain ⟨schema, undone, -, dropped⟩ := DatabaseFile.down_of_known lawful known
  cases dropped current
  have down := step_migrateDown undone
  have up := @step_migrateUp { session with file := {} } migrator new.file migrated
  have share : Shares { session with file := new.file } new := ⟨connected, rfl⟩
  have alike :=
    fun events => runAll_related (fun event _ _ => step_shares migrator event) events share
  constructor
  · intro events
    simp only [runAll, down, up, (alike events).1]
  · intro events
    simp only [runAll, down, up, (alike events).2.file]

/-- What is relied on in sessions on one file, one connection after the other. -/
structure Durable (migrator : Migrator) : Prop where
  unnoticed : ∀ path events session, session.Serves → (∀ event ∈ events, event.Keeps path) →
    Unnoticed migrator events session
  kept : ∀ session, session.file.Known Migration.all →
    ∃ after, step migrator .migrateUp session =
      (.migrated (.ok ()), { session with file := after }) ∧
      session.file.schema.Extends after.schema ∧
      (session.file.applied = [] → ∀ kind, after.schema.has kind = true) ∧
      ∀ path connecting, Dsn.Opens connecting.dsn path connecting.files →
        step migrator (.reconnect connecting) session =
          (.connected (.ok ()), ⟨some connecting.schedule, after⟩)
  founded : ∀ path connecting before, Dsn.Founds connecting.dsn path connecting.files →
    ∃ new, step migrator (.reconnect connecting) before = (.connected (.ok ()), new) ∧
      new.Serves ∧ new.file.IsCurrent ∧ new.file.database = ⟨some {}⟩ ∧
      ∀ session, session.schedule.isSome → session.file.Known Migration.all →
        session.file.IsCurrent →
        Renews migrator session new
  undone : ∀ session, session.file.Known Migration.all →
    ∃ after, step migrator .migrateDown session = (.migrated (.ok ()), after) ∧
      step migrator .migrateDown after = (.migrated (.ok ()), after) ∧
      (session.file = {} → after = session)

theorem migrateDown_again (lawful : migrator.Lawful) (known : session.file.Known Migration.all) :
    ∃ after, step migrator .migrateDown session = (.migrated (.ok ()), after) ∧
      step migrator .migrateDown after = (.migrated (.ok ()), after) ∧
      (session.file = {} → after = session) := by
  obtain ⟨schema, undone, unrecorded, -⟩ := DatabaseFile.down_of_known lawful known
  obtain ⟨again, undoneAgain, same, -⟩ :=
    @DatabaseFile.down_of_known ⟨schema, []⟩ migrator lawful nofun
  cases same rfl
  refine ⟨_, step_migrateDown undone, step_migrateDown undoneAgain, ?_⟩
  intro new
  obtain ⟨schedule, file⟩ := session
  cases new
  cases unrecorded rfl
  rfl

/-- Reconnecting goes unnoticed and migrating up changes no table, for any migrator that goes by the
record. -/
theorem sessions_are_durable (lawful : migrator.Lawful) : Durable migrator where
  unnoticed path events session serves keep := unnoticed lawful keep serves
  kept session known := by
    obtain ⟨after, migrated, upgrade⟩ := DatabaseFile.up_of_known lawful known
    refine ⟨after, step_migrateUp migrated, upgrade.tables, upgrade.whole, ?_⟩
    intro path connecting opens
    exact step_reconnect session (Dsn.connect_of_opens opens connecting.schedule migrated)
  founded path connecting before founds := by
    obtain ⟨after, migrated, upgrade⟩ := @DatabaseFile.up_of_known {} migrator lawful nofun
    have empty : after.database = ⟨some {}⟩ := upgrade.database (.inr rfl)
    refine ⟨⟨some connecting.schedule, after⟩,
      step_reconnect before (Dsn.connect_of_founds founds connecting.schedule before.file migrated),
      ⟨rfl, ?_, upgrade.known⟩, upgrade.current, empty, ?_⟩
    · rw [empty]
      rfl
    · intro session connected known current
      exact renews lawful connected known current migrated
  undone session known := migrateDown_again lawful known

def nearby (schedule : Retry.Schedule) : Connecting :=
  ⟨schedule, "sqlite://m.db?mode=rwc", ({} : Files).write "m.db" Dsn.magic⟩

theorem opens_nearby :
    Dsn.Opens "sqlite://m.db?mode=rwc" "m.db" (({} : Files).write "m.db" Dsn.magic) where
  named := ⟨⟨"m.db", .create, false⟩, by decide +kernel, rfl, .inr rfl, rfl⟩
  there := ⟨Dsn.magic, by decide +kernel, by decide +kernel, by decide +kernel⟩

def twoDeltas : List Event := [
  .perform (.write (.update ⟨"Requests", .counter 2⟩)), .reconnect (nearby []),
  .perform (.write (.update ⟨"Requests", .counter 3⟩)), .reconnect (nearby Retry.standard),
  .perform (.get ⟨"Requests", .counter⟩)]

theorem total_survives_reconnecting :
    let session : Session := ⟨some [], ⟨⟨some .empty, some .empty⟩, ["m001_metric_tables"]⟩⟩
    (runAll (step .stepwise) twoDeltas session).1.filter Reply.isUse =
      [.answered (.written (.ok ())), .answered (.written (.ok ())),
        .answered (.found (.ok ⟨"Requests", .counter 5⟩))] := by
  intro session
  have keep : ∀ event ∈ twoDeltas, event.Keeps "m.db" := by
    simp only [twoDeltas, List.forall_mem_cons]
    exact ⟨trivial, opens_nearby, trivial, opens_nearby, trivial, nofun⟩
  have kept := (sessions_are_durable Migrator.stepwise_lawful).unnoticed "m.db" twoDeltas session
    ⟨rfl, rfl, by decide⟩ keep
  rw [kept.answers]
  rfl

end Session
end Telemetry
