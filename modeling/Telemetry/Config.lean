import Telemetry.Files
import Telemetry.Text.Blank
import Telemetry.Toml.Document

/-!
Where settings come from: a TOML file, which may be missing, and the environment, which overrides
it.
-/
namespace Telemetry.Config

inductive Fault where
  | unreadable (program path : String)
  | malformed (program path : String)
  | badVariable (name reason : String)
  | badAddress (service text : String)
  | badKey (half path : String)
  /-- A setting is out of its range. -/
  | outOfRange (rule : String)
  deriving DecidableEq, Repr

def Fault.message : Fault → String
  | unreadable program path => "failed to read " ++ program ++ " config " ++ path
  | malformed program path => "invalid " ++ program ++ " config " ++ path
  | badVariable name reason => "invalid value for " ++ name ++ ": " ++ reason
  | badAddress service text => "invalid " ++ service ++ " address '" ++ text ++ "'"
  | badKey half path => "failed to load " ++ half ++ " key " ++ path
  | outOfRange rule => rule

abbrev Environment := String → Option String

/-! ### The file -/

def ofFile {α : Type} (program path : String) (read : Toml.Entries → Option α) (standard : α)
    (files : Files) : Except Fault α :=
  if files.exists_ path then
    match (files.read path).toOption.bind Bytes.toText? with
    | none => .error (.unreadable program path)
    | some text =>
      match (Toml.read text).bind read with
      | some settings => .ok settings
      | none => .error (.malformed program path)
  else .ok standard

def text? : Toml.Node → Option String
  | .text text => some text
  | _ => none

def boolean? : Toml.Node → Option Bool
  | .boolean value => some value
  | _ => none

def nat? : Toml.Node → Option Nat
  | .integer value => if 0 ≤ value then some value.toNat else none
  | _ => none

/-- A setting of a file: the standard one if its key is absent, nothing if its value is of another
type. -/
def field {α : Type} (entries : Toml.Entries) (key : String) (read : Toml.Node → Option α)
    (standard : α) : Option α :=
  match entries.get? key with
  | some node => read node
  | none => some standard

/-! ### The environment -/

def withVariable {α : Type} (env : Environment) (name : String)
    (apply : String → α → Except Fault α) (settings : α) : Except Fault α :=
  match env name with
  | some value => apply value settings
  | none => .ok settings

def unlessBlank (value : String) :
    Option String := if Text.isBlankText value then none else some value

def badDigit : String := "invalid digit found in string"

/-- Adds a digit to a 64-bit number. What is wrong first is what is told. -/
def pushDigit (n : Nat) (c : Char) : Except String Nat :=
  if c.isDigit then
    let next := n * 10 + (c.toNat - '0'.toNat)
    if next < 0x10000000000000000 then .ok next else .error "number too large to fit in target type"
  else .error badDigit

def parseNat (text : List Char) : Except String Nat :=
  match text with
  | [] => .error "cannot parse integer from empty string"
  | ['+'] => .error badDigit
  | '+' :: digits => digits.foldlM pushDigit 0
  | digits => digits.foldlM pushDigit 0

def parseBool (text : List Char) : Except String Bool :=
  if text = "true".toList then .ok true
  else if text = "false".toList then .ok false
  else .error "provided string was not `true` or `false`"

def parsed {α : Type} (name : String) (parse : List Char → Except String α) (value : String) :
    Except Fault α :=
  (parse (Text.trim value.toList)).mapError (.badVariable name)

end Telemetry.Config
