import Telemetry.Http.Message
import Telemetry.Text.Percent

namespace Telemetry

inductive Route where
  | index
  | ping
  | updatePath (kind name value : String)
  | update
  | updates
  | value
  | valuePath (kind name : String)
  deriving DecidableEq, Repr

namespace Route

def ofPath? (path : String) : Option Route :=
  match Text.split '/' path with
  | ["", ""] => some .index
  | ["", "ping"] => some .ping
  | ["", "update", ""] => some .update
  | ["", "updates", ""] => some .updates
  | ["", "value", ""] => some .value
  | ["", "update", kind, name, text] =>
    if text = "" then none else some (.updatePath kind name text)
  | ["", "value", kind, name] => if name = "" then none else some (.valuePath kind name)
  | _ => none

/-- Whether the route is one for looking up, and so for `GET` and `HEAD`. -/
def isLookup : Route → Bool
  | index | ping | valuePath .. => true
  | updatePath .. | update | updates | value => false

def accepts (route : Route) (method : String) : Bool :=
  if route.isLookup then method == "GET" || method == "HEAD" else method == "POST"

def allowed (route : Route) : String := if route.isLookup then "GET,HEAD" else "POST"

def decode (name raw : String) : Except String String :=
  match (Percent.decode (Bytes.ofText raw)).toText? with
  | some text => .ok text
  | none => .error name

end Route
end Telemetry
