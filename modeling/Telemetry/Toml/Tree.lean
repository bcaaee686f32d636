namespace Telemetry.Toml

inductive Origin where
  /-- Named by a header of its own. -/
  | header
  /-- On the way to the table that a header names. -/
  | implied
  /-- By dotted keys. -/
  | dotted
  deriving DecidableEq, Repr

inductive Node where
  | text (text : String)
  | integer (value : Int)
  | boolean (value : Bool)
  /-- A number with a fraction or an exponent, an infinity or a NaN. -/
  | real
  /-- A date, a time or both. -/
  | moment
  | array (items : List Node)
  | inline (entries : List (String × Node))
  | table (origin : Origin) (entries : List (String × Node))
  /-- The elements of an array of tables, last first. -/
  | tables (elements : List (List (String × Node)))
  deriving Repr

abbrev Entries := List (String × Node)

namespace Entries

def get? (entries : Entries) (key : String) : Option Node := entries.lookup key

def set (entries : Entries) (key : String) (node : Node) : Entries :=
  (key, node) :: entries.filter fun entry => entry.1 ≠ key

/-- Changes the table at the end of a path of keys. Tables that are missing on the way are made with
the origin `made`; dotted keys lead only through tables that no header names, and the last element
stands for an array of tables. The change is told how the table came into being. -/
def within (made : Origin) (change : Origin → Entries → Option Entries) :
    List String → Origin → Entries → Option Entries
  | [], origin, entries => change origin entries
  | key :: path, _, entries =>
    match entries.get? key with
    | none => (within made change path made []).map fun inner => entries.set key (.table made inner)
    | some (.table origin inner) =>
      if made = .dotted ∧ origin = .header then none
      else (within made change path origin inner).map fun inner =>
        entries.set key (.table origin inner)
    | some (.tables (last :: rest)) =>
      (within made change path .header last).map fun last =>
        entries.set key (.tables (last :: rest))
    | some _ => none

/-- Gives a dotted key below the table of a header its value. The key must be new, and dotted keys
and the table that they lead to must belong together. -/
def assign (header path : List String) (key : String) (value : Node) (entries : Entries) :
    Option Entries :=
  let put (origin : Origin) (entries : Entries) : Option Entries :=
    if (path ≠ [] ∧ origin ≠ .dotted) ∨ (entries.get? key).isSome then none
    else some (entries.set key value)
  within .implied (fun origin entries => within .dotted put path origin entries) header .header
    entries

/-- Opens the table that a header names; it may be there by implication only. -/
def openTable (path : List String) (key : String) (entries : Entries) : Option Entries :=
  let put (_ : Origin) (entries : Entries) : Option Entries :=
    match entries.get? key with
    | none => some (entries.set key (.table .header []))
    | some (.table .implied inner) => some (entries.set key (.table .header inner))
    | some _ => none
  within .implied put path .header entries

def openElement (path : List String) (key : String) (entries : Entries) : Option Entries :=
  let put (_ : Origin) (entries : Entries) : Option Entries :=
    match entries.get? key with
    | none => some (entries.set key (.tables [[]]))
    | some (.tables elements) => some (entries.set key (.tables ([] :: elements)))
    | some _ => none
  within .implied put path .header entries

end Entries
end Telemetry.Toml
