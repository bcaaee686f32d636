import Telemetry.Text.Percent

namespace Telemetry

structure Authority where
  user : String := ""
  password : Option String := none
  host : String
  port : Option Nat := none
  deriving DecidableEq, Repr

inductive UrlPath where
  /-- Text that is no sequence of segments. -/
  | verbatim (text : String)
  | segments (list : List String)
  deriving DecidableEq, Repr

structure Url where
  scheme : String
  authority : Option Authority
  path : UrlPath
  query : Option String := none
  fragment : Option String := none
  deriving DecidableEq, Repr

namespace Url

/-! ### Encoding -/

def isGraphic (b : UInt8) : Bool := 0x20 < b && b < 0x7f

def plainVerbatim (b : UInt8) : Bool := 0x20 ≤ b && b < 0x7f

def plainFragment (b : UInt8) : Bool := isGraphic b && b ∉ Bytes.ofText "\"<>`"

def plainQuery (b : UInt8) : Bool := isGraphic b && b ∉ Bytes.ofText "\"#<>"

def plainSpecialQuery (b : UInt8) : Bool := plainQuery b && b != 0x27

def plainPath (b : UInt8) : Bool := isGraphic b && b ∉ Bytes.ofText "\"#<>?`\x7b\x7d"

def plainSegment (b : UInt8) : Bool := plainPath b && b ∉ Bytes.ofText "/%\\"

def plainUser (b : UInt8) : Bool := plainPath b && b ∉ Bytes.ofText "/:;=@[\\]^|"

def encode (plain : UInt8 → Bool) (text : String) : String :=
  String.ofList ((Percent.encode plain (Bytes.ofText text)).map fun b => Char.ofNat b.toNat)

def isIgnored (c : Char) : Bool := c == '\t' || c == '\n' || c == '\r'

def dropIgnored (text : String) : String := String.ofList (text.toList.filter (! isIgnored ·))

/-! ### Paths -/

def isDot (segment : String) : Bool :=
  ["." , "%2e", "%2E"].contains segment

def isDoubleDot (segment : String) : Bool :=
  ["..", ".%2e", ".%2E", "%2e.", "%2E.", "%2e%2e", "%2e%2E", "%2E%2e", "%2E%2E"].contains segment

/-- Adds an encoded segment behind others. A double dot leaves the segment before it empty, and a
dot is an empty segment. -/
def pushLast (segments : List String) (segment : String) : List String :=
  if isDoubleDot segment then segments.dropLast ++ [""]
  else if isDot segment then segments ++ [""]
  else segments ++ [segment]

def pushInner (segments : List String) (segment : String) : List String :=
  if isDoubleDot segment then segments.dropLast
  else if isDot segment then segments
  else segments ++ [segment]

/-- Adds a segment of any text to a path, whose lone empty segment it takes the place of. -/
def appendSegment (segments : List String) (segment : String) : List String :=
  if segment = "." ∨ segment = ".." then segments
  else pushLast (if segments = [""] then [] else segments)
    (encode plainSegment (dropIgnored segment))

def dropLastEmpty (segments : List String) : List String :=
  match segments.getLast? with
  | some "" => if segments.length = 1 then segments else segments.dropLast
  | _ => segments

/-- The URL with segments added to its path; none if its path has no segments. -/
def extend? (url : Url) (added : List String) : Option Url :=
  match url.path with
  | .verbatim _ => none
  | .segments list =>
    some { url with path := .segments (added.foldl appendSegment (dropLastEmpty list)) }

/-! ### Text -/

def pathText : UrlPath → String
  | .verbatim text => text
  | .segments list => String.join (list.map ("/" ++ ·))

def queryText (query : Option String) : String :=
  match query with
  | some query => "?" ++ query
  | none => ""

def target (url : Url) : String := pathText url.path ++ queryText url.query

def Authority.credentials (authority : Authority) : String :=
  let password := (authority.password.map (":" ++ ·)).getD ""
  if authority.user ++ password = "" then "" else authority.user ++ password ++ "@"

def Authority.place (authority : Authority) : String :=
  authority.host ++ (authority.port.map fun port => ":" ++ toString port).getD ""

def publicText (url : Url) : String :=
  url.scheme ++ ":" ++ (url.authority.map fun a => "//" ++ Authority.place a).getD "" ++ url.target
    ++ (url.fragment.map ("#" ++ ·)).getD ""

def toText (url : Url) : String :=
  url.scheme ++ ":"
    ++ (url.authority.map fun a => "//" ++ Authority.credentials a ++ Authority.place a).getD ""
    ++ url.target ++ (url.fragment.map ("#" ++ ·)).getD ""

end Url
end Telemetry
