import Telemetry.Bytes
import Telemetry.Text.Blank
import Telemetry.Text.Cut

namespace Telemetry

structure Request where
  method : String
  /-- The request target: a path with an optional query, or an absolute URI. -/
  target : String
  headers : List (String × Bytes) := []
  body : Bytes := []
  deriving Repr

structure Response where
  status : Nat
  body : Bytes := []
  contentType : Option String := none
  contentEncoding : Option String := none
  allow : Option String := none
  vary : Option String := none
  /-- The tag of the body. -/
  signature : Option String := none
  deriving DecidableEq, Repr

namespace Text

def lowercase (text : String) : String := String.ofList (text.toList.map Char.toLower)

/-- The text of a header's value, if it has nothing but visible ASCII, blanks and tabs. -/
def ofHeader (value : Bytes) : Option String :=
  if value.all fun b => (0x20 ≤ b && b < 0x7f) || b == 0x09 then
    some (String.ofList (value.map fun b => Char.ofNat b.toNat))
  else none

end Text

namespace Request

def headerValues (request : Request) (name : String) : List Bytes :=
  (request.headers.filter fun header => Text.lowercase header.1 == name).map (·.2)

/-- The text of the first header with a name; one that is no text counts as absent. -/
def header? (request : Request) (name : String) : Option String :=
  match request.headerValues name with
  | value :: _ => Text.ofHeader value
  | [] => none

def path (request : Request) : String :=
  let target := request.target.toList.takeWhile fun c => c != '?' && c != '#'
  if target.head? = some '/' then String.ofList target
  else
    match Text.cut? "://".toList target with
    | some (_, rest) =>
      let path := rest.dropWhile (· != '/')
      if path.isEmpty then "/" else String.ofList path
    | none => String.ofList target

end Request

namespace Response

def plainText : String := "text/plain; charset=utf-8"

def text (status : Nat) (body : String) : Response :=
  { status, body := Bytes.ofText body, contentType := some plainText }

def json (body : Bytes) :
    Response := { status := 200, body, contentType := some "application/json" }

def html (body : String) : Response :=
  { status := 200, body := Bytes.ofText body, contentType := some "text/html; charset=utf-8" }

end Response
end Telemetry
