import Telemetry.Store.Storage

namespace Telemetry.Page

def escapeChar : Char → List Char
  | '&' => "&amp;".toList
  | '<' => "&lt;".toList
  | '>' => "&gt;".toList
  | '"' => "&quot;".toList
  | c => [c]

def escape (text : List Char) : List Char := text.flatMap escapeChar

def head : String :=
  "<!DOCTYPE html>\n<html><head><title>telemon</title></head><body>\n" ++
    "<table>\n<tr><th>Name</th><th>Type</th><th>Value</th></tr>\n"

def tail : String := "</table>\n</body></html>\n"

def row (key : Key) (value : Value) : String :=
  "<tr><td>" ++ String.ofList (escape key.id.toList) ++ "</td><td>" ++ key.kind.name ++ "</td><td>"
    ++ value.toText ++ "</td></tr>\n"

def render (contents : Contents) : String :=
  head ++ String.join (contents.entries.map fun (key, value) => row key value) ++ tail

end Telemetry.Page
