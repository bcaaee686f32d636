import Telemetry.Url.Host

/-!
Reading URLs. Blanks and controls around the text are dropped, and backslashes count as slashes
where the scheme is one of those that name hosts.
-/
namespace Telemetry.Url

/-- The port that a scheme uses if none is written. Schemes that have one name hosts. -/
def standardPort? : String → Option Nat
  | "http" | "ws" => some 80
  | "https" | "wss" => some 443
  | "ftp" => some 21
  | _ => none

def isSchemeChar (c : Char) : Bool := c.isAlphanum || c == '+' || c == '-' || c == '.'

/-- The scheme of a text, in lower case, and the text after its colon. -/
def scheme? (text : List Char) : Option (String × List Char) :=
  let name := text.takeWhile isSchemeChar
  match name, text.dropWhile isSchemeChar with
  | first :: _, ':' :: rest =>
    if first.isAlpha then some (String.ofList (name.map Char.toLower), rest) else none
  | _, _ => none

/-- The text before a character, and the text after it if it is there. -/
def cutAt (mark : Char) (text : List Char) : List Char × Option (List Char) :=
  match text.dropWhile (· != mark) with
  | [] => (text, none)
  | _ :: rest => (text.takeWhile (· != mark), some rest)

/-- The part of a place before its port, and the port's text behind a colon. -/
def spanHost (inside : Bool) : List Char → List Char × Option (List Char)
  | [] => ([], none)
  | c :: rest =>
    if c = ':' ∧ ¬ inside then ([], some rest)
    else
      let (host, port) :=
        spanHost (if c = '[' then true else if c = ']' then false else inside) rest
      (c :: host, port)

/-- A port in decimal; one that is not written or is the standard one is none. -/
def port? (standard : Option Nat) (text : Option (List Char)) : Option (Option Nat) :=
  match text with
  | none | some [] => some none
  | some digits =>
    let n := Nat.ofDigitChars 10 digits 0
    if digits.all Char.isDigit ∧ n ≤ 65535 then some (if some n = standard then none else some n)
    else none

def credentials (text : List Char) : Option (String × Option String) × List Char :=
  match cutAt '@' text.reverse with
  | (_, none) => (none, text)
  | (place, some user) =>
    let (user, password) := cutAt ':' user.reverse
    (some (encode plainUser (String.ofList user),
      password.map fun text => encode plainUser (String.ofList text)), place.reverse)

/-- The authority that a text writes. A named host must not be empty; an empty one has neither user
nor port. -/
def authority? (standard : Option Nat) (host? : String → Option String) (text : List Char) :
    Option Authority := do
  let (user, place) := credentials text
  let (host, portText) := spanHost false place
  if host.isEmpty then
    if standard.isSome ∨ portText.isSome ∨ user.any (fun u => u.1 ≠ "" ∨ u.2.isSome) then none
    else return { host := "" }
  let (name, password) := user.getD ("", none)
  return ⟨name, password, ← host? (String.ofList host), ← port? standard portText⟩

def partsBetween (isSlash : Char → Bool) : List Char → List (List Char)
  | [] => [[]]
  | c :: rest =>
    if isSlash c then [] :: partsBetween isSlash rest
    else
      match partsBetween isSlash rest with
      | part :: parts => (c :: part) :: parts
      | [] => [[c]]

def segments (isSlash : Char → Bool) (text : List Char) : List String :=
  let encoded := (partsBetween isSlash text).map fun part => encode plainPath (String.ofList part)
  match encoded.getLast? with
  | some last => pushLast (encoded.dropLast.foldl pushInner []) last
  | none => []

def isSlash (c : Char) : Bool := c == '/' || c == '\\'

def isPadding (c : Char) : Bool := c.toNat ≤ 0x20

/-- What follows the scheme, without query and fragment: the authority and the path. -/
def hierarchy? (scheme : String) (text : List Char) : Option (Option Authority × UrlPath) :=
  match standardPort? scheme with
  | some port => do
    let rest := text.dropWhile isSlash
    let authority ← authority? (some port) Host.ofText? (rest.takeWhile (! isSlash ·))
    return (some authority, .segments (segments isSlash ((rest.dropWhile (! isSlash ·)).drop 1)))
  | none =>
    let file := scheme == "file"
    let slash (c : Char) := if file then isSlash c else c == '/'
    match text with
    | a :: b :: rest =>
      if slash a && slash b then do
        let authority ← authority? none (if file then Host.ofText? else Host.opaqueOfText?)
          (rest.takeWhile (! slash ·))
        let path := rest.dropWhile (! slash ·)
        return (some authority,
          .segments (if path.isEmpty && !file then [] else segments slash (path.drop 1)))
      else if slash a then some (none, .segments (segments slash (b :: rest)))
      else if file then some (none, .segments (segments slash text))
      else some (none, .verbatim (encode plainVerbatim (String.ofList text)))
    | [a] =>
      if slash a then some (none, .segments [""])
      else if file then some (none, .segments (segments slash [a]))
      else some (none, .verbatim (encode plainVerbatim (String.ofList [a])))
    | [] => some (none, if file then .segments [""] else .verbatim "")

def parse (text : String) : Option Url := do
  let text := ((text.toList.dropWhile isPadding).reverse.dropWhile isPadding).reverse
  let (scheme, rest) ← scheme? (text.filter (! isIgnored ·))
  let (rest, fragment) := cutAt '#' rest
  let (rest, query) := cutAt '?' rest
  let (authority, path) ← hierarchy? scheme rest
  let plain := if (standardPort? scheme).isSome then plainSpecialQuery else plainQuery
  return ⟨scheme, authority, path, query.map fun q => encode plain (String.ofList q),
    fragment.map fun f => encode plainFragment (String.ofList f)⟩

end Telemetry.Url
