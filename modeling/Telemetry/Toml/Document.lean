import Telemetry.Toml.Text

/-!
TOML documents. A document is a sequence of lines: pairs of a dotted key and a value, headers of
tables and of elements of arrays of tables, comments and blanks. Arrays, inline tables and dotted
keys are refused beyond a fixed depth.
-/
namespace Telemetry.Toml

abbrev Reader (α : Type) := List Char → Option (α × List Char)

/-- How deep arrays and inline tables may be nested, and how many parts a key may have. -/
def nesting : Nat := 79

def skipBlank (text : List Char) : List Char := text.dropWhile isBlank

def skipComment : List Char → List Char
  | '#' :: rest => rest.dropWhile isPlain
  | text => text

/-- The text after the end of a line: a comment, then a line end or the end of the text. -/
def endLine (text : List Char) : Option (List Char) :=
  match skipComment (skipBlank text) with
  | [] => some []
  | '\n' :: rest => some rest
  | '\r' :: '\n' :: rest => some rest
  | _ => none

/-- Skips blanks, line ends and comments, within one of which the text may begin. -/
def skipLines (inComment : Bool) : List Char → List Char
  | '\n' :: rest => skipLines false rest
  | '\r' :: '\n' :: rest => skipLines false rest
  | c :: rest =>
    if inComment && isPlain c then skipLines true rest
    else if inComment then c :: rest
    else if isBlank c then skipLines false rest
    else if c = '#' then skipLines true rest
    else c :: rest
  | [] => []

/-! ### Keys -/

def isBareKeyChar (c : Char) : Bool := c.isAlphanum || c == '-' || c == '_'

def keyPart : Reader String
  | '"' :: rest => basicText [] rest
  | '\'' :: rest => literalText [] rest
  | text =>
    match text.takeWhile isBareKeyChar with
    | [] => none
    | part => some (String.ofList part, text.dropWhile isBareKeyChar)

/-- A dotted key, with blanks around its parts: the parts before the last one, and the last one. -/
def dottedKey : Nat → Reader (List String × String)
  | 0, _ => none
  | bound + 1, text => do
    let (part, rest) ← keyPart (skipBlank text)
    match skipBlank rest with
    | '.' :: rest =>
      let ((path, key), rest) ← dottedKey bound rest
      return ((part :: path, key), rest)
    | rest => return (([], part), rest)

def key : Reader (List String × String) := dottedKey nesting

/-! ### Values -/

def isWordChar (c : Char) : Bool := isBareKeyChar c || c == '+' || c == '.' || c == ':'

/-- A value of one word. A blank may stand between a date and a time of day. -/
def word (text : List Char) : Option (Node × List Char) :=
  let first := text.takeWhile isWordChar
  let rest := text.dropWhile isWordChar
  match rest with
  | ' ' :: next :: more =>
    if isDate first && next.isDigit then
      let time := (next :: more).takeWhile isWordChar
      if isTimeOfDay time then some (.moment, (next :: more).dropWhile isWordChar) else none
    else (Node.ofWord? first).map (·, rest)
  | _ => (Node.ofWord? first).map (·, rest)

def string (text : List Char) : Option (String × List Char) :=
  match text with
  | '"' :: '"' :: '"' :: rest => multilineText false [] (skipLineEnd rest)
  | '"' :: rest => basicText [] rest
  | '\'' :: '\'' :: '\'' :: rest => multilineLiteral [] (skipLineEnd rest)
  | '\'' :: rest => literalText [] rest
  | _ => none

def pair (value : Reader Node) : Reader ((List String × String) × Node) := fun text => do
  let (name, rest) ← key text
  match rest with
  | '=' :: rest =>
    let (node, rest) ← value (skipBlank rest)
    return ((name, node), rest)
  | _ => none

/-- The items of an array after its opening bracket, last first; a comma may follow the last one. -/
def items (value : Reader Node) : Nat → List Node → Reader (List Node)
  | 0, _, _ => none
  | bound + 1, done, text =>
    match skipLines false text with
    | ']' :: rest => some (done, rest)
    | text => do
      let (item, rest) ← value text
      match skipLines false rest with
      | ',' :: rest => items value bound (item :: done) rest
      | ']' :: rest => return (item :: done, rest)
      | _ => none

/-- The pairs of an inline table after its opening brace; it is on one line, and no comma follows
the last pair. -/
def inlinePairs (value : Reader Node) : Nat → Entries → Reader Entries
  | 0, _, _ => none
  | bound + 1, done, text => do
    let (((path, name), node), rest) ← pair value text
    let done ← done.assign [] path name node
    match skipBlank rest with
    | ',' :: rest => inlinePairs value bound done rest
    | '}' :: rest => return (done, rest)
    | _ => none

def value : Nat → Reader Node
  | depth, '[' :: rest =>
    match depth with
    | 0 => none
    | depth + 1 => (items (value depth) (rest.length + 1) [] rest).map fun (nodes, rest) =>
      (.array nodes.reverse, rest)
  | depth, '\x7b' :: rest =>
    match depth with
    | 0 => none
    | depth + 1 =>
      match skipBlank rest with
      | '\x7d' :: rest => some (.inline [], rest)
      | rest =>
        (inlinePairs (value depth) (rest.length + 1) [] rest).map fun (entries, rest) =>
          (.inline entries, rest)
  | _, text =>
    match text with
    | '"' :: _ | '\'' :: _ => (string text).map fun (s, rest) => (.text s, rest)
    | _ => word text

/-! ### Lines -/

inductive Line where
  | pair (path : List String) (key : String) (value : Node)
  | table (path : List String) (key : String)
  | element (path : List String) (key : String)
  deriving Repr

def line : Reader Line
  | '[' :: '[' :: rest => do
    let ((path, key), rest) ← key rest
    match rest with
    | ']' :: ']' :: rest => return (.element path key, rest)
    | _ => none
  | '[' :: rest => do
    let ((path, key), rest) ← key rest
    match rest with
    | ']' :: rest => return (.table path key, rest)
    | _ => none
  | text => do
    let (((path, key), node), rest) ← pair (value nesting) text
    return (.pair path key node, rest)

/-- A document under construction: its tables, and the path of the table that pairs go to. -/
structure Draft where
  entries : Entries := []
  header : List String := []
  deriving Repr

def Draft.add (draft : Draft) : Line → Option Draft
  | .pair path key node => do
    return { draft with entries := ← draft.entries.assign draft.header path key node }
  | .table path key => do return ⟨← draft.entries.openTable path key, path ++ [key]⟩
  | .element path key => do return ⟨← draft.entries.openElement path key, path ++ [key]⟩

def lines : Nat → Draft → List Char → Option Draft
  | 0, _, _ => none
  | bound + 1, draft, text =>
    match skipLines false text with
    | [] => some draft
    | text => do
      let (next, rest) ← line text
      lines bound (← draft.add next) (← endLine rest)

def read (text : String) : Option Entries :=
  let chars := match text.toList with
    | '\ufeff' :: rest => rest
    | chars => chars
  (lines (chars.length + 1) {} chars).map (·.entries)

end Telemetry.Toml
