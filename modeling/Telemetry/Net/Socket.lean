import Telemetry.Net.Ip

namespace Telemetry.Net

inductive Socket where
  | v4 (ip : Ip4) (port : UInt16)
  | v6 (ip : Ip6) (scope : UInt32) (port : UInt16)
  deriving DecidableEq, Repr

namespace Socket

def port : Reader UInt16 := fun text => do
  let (n, rest) ← decimal 65535 (← expect ':' text)
  return (n.toUInt16, rest)

def scope (text : List Char) : UInt32 × List Char :=
  match (expect '%' text).bind (decimal 4294967295) with
  | some (n, rest) => (n.toUInt32, rest)
  | none => (0, text)

def read : Reader Socket := fun text =>
  match ip4 text with
  | some (ip, rest) => (port rest).map fun (port, rest) => (.v4 ip port, rest)
  | none => do
    let (ip, rest) ← ip6 (← expect '[' text)
    let (scope, rest) := scope rest
    let (port, rest) ← port (← expect ']' rest)
    return (.v6 ip scope port, rest)

def ofText? (text : String) : Option Socket :=
  match read text.toList with
  | some (socket, []) => some socket
  | _ => none

def toText : Socket → String
  | v4 ip port => ip.toText ++ ":" ++ toString port.toNat
  | v6 ip scope port =>
    let scope := if scope = 0 then "" else "%" ++ toString scope.toNat
    "[" ++ ip.toText ++ scope ++ "]:" ++ toString port.toNat

end Socket
end Telemetry.Net
