import Telemetry.Proofs.Store.Retried

/-!
A database over a connection that may be lost, access by access. Main statements: over one that is
never lost it is the relational store, and a write over any other settles as it would over that one
or leaves the tables alone.
-/
namespace Telemetry.Database

variable {schedule : Retry.Schedule} {ms : List Metric} {tables : Memory}

/-! ### Reading -/

theorem ask_cases {α : Type} (schedule : Retry.Schedule) (lost : Nat → Bool)
    {answer : Except Error α} (lasting : answer ≠ .error .connection) :
    ask schedule lost answer = (answer.mapError .permanent).mapError faultOf ∨
      (∀ k ≤ schedule.length, lost (k + 1) = true) ∧
        ask schedule lost answer = .error (.unavailable (schedule.length + 1)) := by
  have ends : Retry.Ends (fun attempt => lost attempt = true) answer () Error.connection () 1
      schedule
      (Retry.run schedule Error.isTransient
        (fun attempt state => (if lost attempt then .error .connection else answer, state))
        ()) := by
    refine Retry.runFrom_ends rfl ?_ ?_ ?_ 1 schedule
    · rintro (_ | _) failed
      · exact absurd failed lasting
      · rfl
    · intro attempt broken
      rw [if_pos broken]
    · intro attempt steady
      rw [if_neg steady]
  unfold ask
  generalize Retry.run schedule Error.isTransient _ () = ended at ends
  cases ends with
  | came => exact .inl rfl
  | ranOut all =>
    simp only [Nat.add_comm 1] at all ⊢
    exact .inr ⟨all, rfl⟩

theorem ask_of_steady {α : Type} {answer : Except Error α} (lasting : answer ≠ .error .connection) :
    ask schedule (fun _ => false) answer = (answer.mapError .permanent).mapError faultOf := by
  rcases ask_cases schedule (fun _ => false) lasting with answered | ⟨lost, -⟩
  · exact answered
  · cases lost 0 (Nat.zero_le _)

theorem rows_ne_connection (database : Database) : database.rows ≠ .error .connection := by
  obtain ⟨_ | tables⟩ := database <;> nofun

theorem ask_rows_of_steady (database : Database) :
    ask schedule (fun _ => false) database.rows = database.read .ok := by
  rw [ask_of_steady (rows_ne_connection database)]
  obtain ⟨_ | tables⟩ := database <;> rfl

/-- A connection that is never lost is none to speak of. -/
theorem overLink_steady (schedule : Retry.Schedule) :
    overLink schedule .steady = storage schedule := by
  have get : ∀ (key : Key) (database : Database),
      (overLink schedule .steady).get key database = (storage schedule).get key database := by
    intro key database
    simp only [overLink, Link.steady, ask_rows_of_steady]
    obtain ⟨_ | tables⟩ := database <;> rfl
  have all :
      ∀ database, (overLink schedule .steady).all database = (storage schedule).all database := by
    intro database
    simp only [overLink, Link.steady, ask_rows_of_steady]
    obtain ⟨_ | tables⟩ := database <;> rfl
  have ping : ∀ database, (overLink schedule .steady).ping database =
      (storage schedule).ping database := by
    intro database
    exact ask_of_steady nofun
  rw [overLink, storage, Storage.mk.injEq]
  exact ⟨rfl, rfl, rfl, funext fun key => funext (get key), funext all, funext ping⟩

theorem get_overLink_cases (link : Link) {key : Key} {value : Value}
    (there : tables.lookup key = some value) :
    (overLink schedule link).get key ⟨some tables⟩ = .ok ⟨key.id, value⟩ ∨
      (∀ k ≤ schedule.length, link.read key.kind (k + 1) = true) ∧
        (overLink schedule link).get key ⟨some tables⟩ =
          .error (.unavailable (schedule.length + 1)) := by
  have found : Memory.get key tables = .ok ⟨key.id, value⟩ := by rw [Memory.get, there]
  simp only [overLink]
  rcases ask_cases schedule (link.read key.kind) (rows_ne_connection ⟨some tables⟩) with
    answered | ⟨lost, failed⟩
  · rw [answered]
    exact .inl found
  · rw [failed]
    exact .inr ⟨lost, rfl⟩

/-! ### Writing -/

/-- A write over a connection that may be lost settles as one over a connection that is not, unless
it leaves the tables alone because every attempt lost it. -/
theorem write_cases (schedule : Retry.Schedule) (lost : Nat → Option Nat) (ms : List Metric)
    (tables : Memory) :
    let written := write schedule lost ms ⟨some tables⟩
    Writes ms tables (written.result, written.database) ∨
      written.result = .error (.unavailable (schedule.length + 1)) ∧
        written.database = ⟨some tables⟩ := by
  intro written
  by_cases empty : ∃ m ∈ ms, m.id = ""
  · simp only [written, write, mapM_requireId_error empty]
    exact .inl (.unnamed empty)
  have named : ∀ m ∈ ms, m.id ≠ "" := fun m member unnamed => empty ⟨m, member, unnamed⟩
  simp only [written]
  rcases write_ends named schedule lost tables with ⟨n, -, ran⟩ | ⟨-, ran⟩
  · rw [ran]
    exact .inl (updateBatch_cases schedule ms tables)
  · rw [ran]
    exact .inr ⟨rfl, rfl⟩

/-- What a write answers and leaves over any connection: all its metrics are applied, or none. -/
inductive Settles (ms : List Metric) (tables : Memory) : Except StoreFault Unit × Database → Prop
  | applied {next : Memory}
      (each : updateEach Memory.update (ms.map Metric.unsignZero) tables = (.ok (), next)) :
      Settles ms tables (.ok (), ⟨some next⟩)
  | left (fault : StoreFault) : Settles ms tables (.error fault, ⟨some tables⟩)

theorem Writes.settles {written : Except StoreFault Unit × Database}
    (writes : Writes ms tables written) :
    Settles ms tables written := by
  cases writes with
  | applied _ each => exact .applied each
  | unnamed => exact .left _
  | overflow => exact .left _
  | notNumber => exact .left _

theorem updateBatch_settles (schedule : Retry.Schedule) (link : Link) (ms : List Metric)
    (tables : Memory) :
    Settles ms tables ((overLink schedule link).updateBatch ms ⟨some tables⟩) := by
  rcases write_cases schedule link.write ms tables with writes | ⟨failed, unchanged⟩
  · exact writes.settles
  · have written : (overLink schedule link).updateBatch ms ⟨some tables⟩ =
        (.error (.unavailable (schedule.length + 1)), ⟨some tables⟩) := Prod.ext failed unchanged
    rw [written]
    exact .left _

end Telemetry.Database
