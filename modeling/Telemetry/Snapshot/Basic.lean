import Telemetry.Files
import Telemetry.Metric.Wire
import Telemetry.Store.Storage

/-!
Snapshots: every series of a store in a JSON file. A snapshot is written beside its path first and
then moved over it, so that the file is at any moment the old one or the new one.
-/
namespace Telemetry.Snapshot

def temporary (path : String) : String := path ++ ".tmp"

inductive Step where
  | makeDirectories (path : String)
  | create (path : String)
  | write (path : String) (bytes : Bytes)
  | sync (path : String)
  | rename (source target : String)
  deriving DecidableEq, Repr

def Step.path : Step → String
  | makeDirectories path | create path | write path _ | sync path | rename _ path => path

def Step.run (files : Files) : Step → Except Files.Fault Files
  | makeDirectories path => files.makeDirectories path
  | create path => files.create path
  | write path bytes => .ok (files.set path (.file bytes))
  | sync _ => .ok files
  | rename source target => files.rename source target

def steps (path : String) (bytes : Bytes) : List Step :=
  ((Files.parent? path).map Step.makeDirectories).toList
    ++ [.create (temporary path), .write (temporary path) bytes, .sync (temporary path),
      .rename (temporary path) path]

/-- Runs steps up to the first that fails, which is answered with the files as they are then. -/
def runSteps : List Step → Files → Except StoreFault Unit × Files
  | [], files => (.ok (), files)
  | step :: rest, files =>
    match step.run files with
    | .ok files => runSteps rest files
    | .error _ => (.error (.snapshotFile step.path), files)

/-- The bytes of a snapshot: the series as a list of records in the order of their keys. -/
def bytes (contents : Contents) : Bytes := Metric.listToJson contents.metrics

def save (path : String) (contents : Except StoreFault Contents) (files : Files) :
    Except StoreFault Nat × Files :=
  match contents with
  | .error fault => (.error fault, files)
  | .ok contents =>
    match runSteps (steps path (bytes contents)) files with
    | (.ok (), files) => (.ok contents.size, files)
    | (.error fault, files) => (.error fault, files)

/-- Applies the records of a file to a store and answers how many there are. A missing file has
none. -/
def load {σ : Type} (storage : Storage σ) (path : String) (files : Files) (state : σ) :
    Except StoreFault Nat × σ :=
  match files.read path with
  | .error .missing => (.ok 0, state)
  | .error .obstructed => (.error (.snapshotFile path), state)
  | .ok bytes =>
    match Json.document (Json.list Metric.ofJson) bytes with
    | .error fault => (.error (.snapshotFormat fault), state)
    | .ok records =>
      match storage.updateBatch records state with
      | (.ok (), state) => (.ok records.length, state)
      | (.error fault, state) => (.error fault, state)

end Telemetry.Snapshot
