import Telemetry.Proofs.Files
import Telemetry.Proofs.Retry
import Telemetry.Store.Dsn

namespace Telemetry.Dsn

/-- A name of the database in the file at a path, which may be written. -/
structure Names (dsn path : String) (target : Target) : Prop where
  parsed : parse dsn = some target
  parts : Files.parts target.path = Files.parts path
  mode : target.mode = .readWrite ∨ target.mode = .create
  written : target.immutable = false

structure Opens (dsn path : String) (files : Files) : Prop where
  named : ∃ target, Names dsn path target
  there : ∃ bytes, files.node? path = some (.file bytes) ∧ bytes.isEmpty = false ∧
    magic.isPrefixOf bytes = true

/-- There is an empty file, or a directory for one that is to be created. -/
inductive Founds (dsn path : String) (files : Files) : Prop
  | empty {target : Target} (named : Names dsn path target)
      (there : files.node? path = some (.file []))
  | created {target : Target} (named : Names dsn path target) (create : target.mode = .create)
      (free : files.node? path = none) {parent : String} (inside : Files.parent? path = some parent)
      (placed : files.node? parent = some .directory)

variable {dsn path : String} {target : Target} {files : Files} {migrator : Migrator}
  {held after : DatabaseFile}

theorem Names.not_memory (named : Names dsn path target) : target.mode ≠ .memory := by
  rcases named.mode with mode | mode <;> rw [mode] <;> decide

theorem Names.node? (named : Names dsn path target) (files : Files) :
    files.node? target.path = files.node? path := by
  rw [Files.node?, named.parts]
  rfl

theorem Names.parent? (named : Names dsn path target) :
    Files.parent? target.path = Files.parent? path := by
  rw [Files.parent?, Files.ancestors, named.parts]
  rfl

theorem attempt_of_file (named : Names dsn path target) {bytes : Bytes}
    (there : files.node? path = some (.file bytes)) :
    attempt dsn files = (.ok target, files) := by
  simp only [attempt, named.parsed, named.not_memory, named.node?, there, if_false]

theorem attempt_of_free (named : Names dsn path target) (create : target.mode = .create)
    (free : files.node? path = none) {parent : String} (inside : Files.parent? path = some parent)
    (placed : files.node? parent = some .directory) :
    attempt dsn files = (.ok target, files.set target.path (.file [])) := by
  have isPlaced : (files.node? parent == some Node.directory) = true := beq_iff_eq.2 placed
  simp [attempt, named.parsed, named.node?, named.parent?, free, inside, isPlaced, create]

/-- Once there is a file that can be a database, its migrations are all that connecting depends on.
-/
theorem connect_of_file (named : Names dsn path target) {reached : Files}
    (attempted : attempt dsn files = (.ok target, reached)) {bytes : Bytes}
    (there : reached.node? target.path = some (.file bytes))
    (valid : (bytes.isEmpty || magic.isPrefixOf bytes) = true)
    (migrated : migrator.up Migration.all (if bytes.isEmpty then {} else held) = (.ok (), after))
    (schedule : Retry.Schedule) :
    connect schedule dsn files held migrator = ⟨.ok after.database, after, []⟩ := by
  have written : ¬ (decide (target.mode = .readOnly) || target.immutable) = true := by
    rcases named.mode with mode | mode <;> simp [mode, named.written]
  have prepared : prepare migrator held target reached = (.ok (), after) := by
    simp only [prepare, named.not_memory, Files.read_of_node? there, valid, if_true, if_false]
    rw [if_neg written, migrated]
  rw [connect, Retry.run_of_ok attempted]
  simp only [prepared]

theorem connect_of_opens (opens : Opens dsn path files) (schedule : Retry.Schedule)
    (migrated : migrator.up Migration.all held = (.ok (), after)) :
    connect schedule dsn files held migrator = ⟨.ok after.database, after, []⟩ := by
  obtain ⟨target, named⟩ := opens.named
  obtain ⟨bytes, there, filled, headed⟩ := opens.there
  apply connect_of_file named (attempt_of_file named there) ((named.node? files).trans there)
  · rw [headed, Bool.or_true]
  · rw [if_neg (by simp [filled])]
    exact migrated

theorem connect_of_founds (founds : Founds dsn path files) (schedule : Retry.Schedule)
    (held : DatabaseFile) (migrated : migrator.up Migration.all {} = (.ok (), after)) :
    connect schedule dsn files held migrator = ⟨.ok after.database, after, []⟩ := by
  cases founds with
  | empty named there =>
    have found := (named.node? files).trans there
    exact connect_of_file named (attempt_of_file named there) found rfl migrated schedule
  | @created target named create free _ inside placed =>
    have found := files.node?_set_self target.path (.file [])
    exact connect_of_file named (attempt_of_free named create free inside placed) found rfl migrated
      schedule

end Telemetry.Dsn
