import Telemetry.Bytes
import Telemetry.Table
import Telemetry.Text.Cut

/-!
A directory of files and further directories, addressed by relative paths with `/` between their
parts.
-/
namespace Telemetry

inductive Node where
  | file (bytes : Bytes)
  | directory
  deriving DecidableEq, Repr

structure Files where
  nodes : Table String Node := .empty

namespace Files

/-- Why a file cannot be had: it is not there, or something else is in the way. -/
inductive Fault where
  | missing
  | obstructed
  deriving DecidableEq, Repr

def parts (path : String) : List String :=
  (Text.split '/' path).filter fun part => part ≠ "" ∧ part ≠ "."

def join (parts : List String) : String := "/".intercalate parts

def ancestors (path : String) : List String :=
  let all := parts path
  (List.range (all.length - 1)).map fun n => join (all.take (n + 1))

def parent? (path : String) : Option String := (ancestors path).getLast?

def node? (files : Files) (path : String) : Option Node := files.nodes.get? (join (parts path))

def set (files : Files) (path : String) (node : Node) : Files :=
  ⟨files.nodes.put (join (parts path)) node⟩

def remove (files : Files) (path : String) : Files :=
  ⟨files.nodes.entries.foldl
    (fun table (name, node) => if name = join (parts path) then table else table.put name node)
      .empty⟩

def isFile (files : Files) (path : String) : Bool :=
  match files.node? path with
  | some (.file _) => true
  | _ => false

def exists_ (files : Files) (path : String) : Bool := (files.node? path).isSome

def read (files : Files) (path : String) : Except Fault Bytes :=
  match files.node? path with
  | some (.file bytes) => .ok bytes
  | some .directory => .error .obstructed
  | none => if (ancestors path).any files.isFile then .error .obstructed else .error .missing

/-- Creates a directory and those it lies in. A file in the way refuses it. -/
def makeDirectories (files : Files) (path : String) : Except Fault Files :=
  (ancestors path ++ [path]).foldlM (fun files path =>
    match files.node? path with
    | some (.file _) => .error .obstructed
    | some .directory => .ok files
    | none => .ok (files.set path .directory)) files

def create (files : Files) (path : String) : Except Fault Files :=
  match files.node? path with
  | some .directory => .error .obstructed
  | _ => .ok (files.set path (.file []))

/-- Moves a file over another one or to a free name; a directory is not replaced. -/
def rename (files : Files) (source target : String) : Except Fault Files :=
  match files.node? source, files.node? target with
  | _, some .directory => .error .obstructed
  | some node, _ => .ok ((files.remove source).set target node)
  | none, _ => .error .missing

def write (files : Files) (path : String) (bytes : Bytes) : Files :=
  ((ancestors path).foldl (fun files path => files.set path .directory) files).set path
    (.file bytes)

end Files
end Telemetry
