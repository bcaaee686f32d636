import Telemetry.Files
import Telemetry.Store.Migration
import Telemetry.Text.Percent

namespace Telemetry.Dsn

inductive Mode where
  | readOnly
  | readWrite
  | create
  | memory
  deriving DecidableEq, Repr

structure Target where
  path : String
  mode : Mode
  immutable : Bool
  deriving DecidableEq, Repr

def dropAll (part : List Char) (text : List Char) : Nat → List Char
  | 0 => text
  | bound + 1 =>
    if part.isPrefixOf text then dropAll part (text.drop part.length) bound else text

def decoded (text : String) : Option String := (Percent.decode (Bytes.ofText text)).toText?

def Target.set (target : Target) (name value : String) : Option Target :=
  match name, value with
  | "mode", "ro" => some { target with mode := .readOnly }
  | "mode", "rw" => some target
  | "mode", "rwc" => some { target with mode := .create }
  | "mode", "memory" => some { target with mode := .memory }
  | "cache", "private" | "cache", "shared" => some target
  | "immutable", "true" | "immutable", "1" => some { target with immutable := true }
  | "immutable", "false" | "immutable", "0" => some { target with immutable := false }
  | "vfs", _ => some target
  | _, _ => none

def parameters (query : String) : List (String × String) :=
  (Text.split '&' query).filterMap fun part =>
    if part = "" then none
    else
      let plain (text : List Char) : String :=
        let text := String.ofList (text.map fun c => if c = '+' then ' ' else c)
        (decoded text).getD text
      let name := part.toList.takeWhile (· != '=')
      some (plain name, plain (part.toList.drop (name.length + 1)))

def parse (dsn : String) : Option Target :=
  let text := dsn.toList
  if "sqlite:".toList.isPrefixOf text then
    let text := dropAll "sqlite:".toList (dropAll "sqlite://".toList text text.length) text.length
    let place := text.takeWhile (· != '?')
    let query := String.ofList (text.drop (place.length + 1))
    let start : Option Target :=
      if place = ":memory:".toList then some ⟨"", .memory, false⟩
      else (decoded (String.ofList place)).map fun path => ⟨path, .readWrite, false⟩
    start.bind fun target =>
      (parameters query).foldlM (fun target (name, value) => target.set name value) target
  else none

def magic : Bytes := Bytes.ofText "SQLite format 3" ++ [0]

/-- One attempt to connect, which creates a missing file if that is asked for; and whether the
target can be written. -/
def attempt (dsn : String) (files : Files) : Except Database.Error Target × Files :=
  match parse dsn with
  | none => (.error .connection, files)
  | some target =>
    if target.mode = .memory then (.ok target, files)
    else
      match files.node? target.path with
      | some (.file _) => (.ok target, files)
      | some .directory => (.error .connection, files)
      | none =>
        let placed := match Files.parent? target.path with
          | some parent => files.node? parent == some .directory
          | none => false
        if target.mode = .create && placed then (.ok target, files.set target.path (.file []))
        else (.error .connection, files)

/-- Migrates the database of a target up. A file that holds a database holds `held`; an empty one is
a new database, as is one in memory. -/
def prepare (migrator : Migrator) (held : DatabaseFile) (target : Target) (files : Files) :
    Except Database.Error Unit × DatabaseFile :=
  if target.mode = .memory then migrator.up Migration.all {}
  else
    match files.read target.path with
    | .ok bytes =>
      if bytes.isEmpty || magic.isPrefixOf bytes then
        if target.mode = .readOnly || target.immutable then (.error .other, held)
        else migrator.up Migration.all (if bytes.isEmpty then {} else held)
      else (.error .other, held)
    | .error _ => (.error .other, held)

/-- What comes of connecting: the database or a fault, the file that the database lies in, and the
delays. -/
structure Connection where
  result : Except StoreFault Database
  file : DatabaseFile
  slept : List Nat

def connect (schedule : Retry.Schedule) (dsn : String) (files : Files) (held : DatabaseFile := {})
    (migrator : Migrator := .stepwise) : Connection :=
  let outcome := Retry.run schedule Database.Error.isTransient (fun _ => attempt dsn) files
  match outcome.result with
  | .error failure => ⟨.error (Database.faultOf failure), held, outcome.slept⟩
  | .ok target =>
    match prepare migrator held target outcome.state with
    | (.ok (), file) => ⟨.ok file.database, file, outcome.slept⟩
    | (.error _, file) => ⟨.error .database, file, outcome.slept⟩

end Telemetry.Dsn
