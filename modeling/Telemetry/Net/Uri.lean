/-!
Which texts are URIs as connections take them: a scheme, an authority of plain characters, a path
and a query. Escapes are left to whoever wrote the text.
-/
namespace Telemetry.Net.Uri

def lengthLimit : Nat := 65535

def isAuthorityChar (c : Char) : Bool := c.isAlphanum || "!$&'()*+,-.:;=@[]_~".toList.contains c

/-- A scan through an authority: the colons since the last at sign or bracket, whether a bracket has
been opened and closed, and whether an escape is pending. -/
structure Scan where
  colons : Nat := 0
  opened : Bool := false
  closed : Bool := false
  escaped : Bool := false
  deriving DecidableEq, Repr

def Scan.step (scan : Scan) (c : Char) : Option Scan :=
  match c with
  | ':' => if 8 ≤ scan.colons then none else some { scan with colons := scan.colons + 1 }
  | '[' => if scan.escaped || scan.opened then none else some { scan with opened := true }
  | ']' =>
    if !scan.opened || scan.closed then none
    else some { scan with closed := true, colons := 0, escaped := false }
  | '@' => some { scan with colons := 0, escaped := false }
  | '%' => some { scan with escaped := true }
  | _ => if isAuthorityChar c then some scan else none

/-- An authority has one port at most, brackets in pairs, and escapes before an at sign only. -/
def isAuthority (text : List Char) : Bool :=
  match text.foldlM Scan.step {} with
  | some scan =>
    !text.isEmpty && scan.opened == scan.closed && scan.colons ≤ 1 && !scan.escaped
      && text.getLast? != some '@'
  | none => false

def isPathChar (c : Char) : Bool :=
  0x20 < c.toNat && c != '#' && c != '<' && c != '>' && c != '?' && c.toNat != 0x60

def isQueryChar (c : Char) : Bool := 0x20 < c.toNat && "\"#<>".toList.contains c == false

def isTarget (text : List Char) : Bool :=
  let text := text.takeWhile (· != '#')
  (text.takeWhile (· != '?')).all isPathChar
    && ((text.dropWhile (· != '?')).drop 1).all isQueryChar

def isSchemeChar (c : Char) : Bool := c.isAlphanum || "+-.~".toList.contains c

def afterScheme? (text : List Char) : Option (List Char) :=
  let scheme := text.takeWhile isSchemeChar
  match text.dropWhile isSchemeChar with
  | ':' :: '/' :: '/' :: rest => if scheme.length ≤ 64 then some rest else none
  | _ => none

def isValid (text : String) : Bool :=
  text.utf8ByteSize < lengthLimit &&
    match text.toList, afterScheme? text.toList with
    | '/' :: _, _ => isTarget text.toList
    | _, some rest =>
      let isEnd (c : Char) := c == '/' || c == '?' || c == '#'
      isAuthority (rest.takeWhile (! isEnd ·)) && isTarget (rest.dropWhile (! isEnd ·))
    | _, none => false

end Telemetry.Net.Uri
