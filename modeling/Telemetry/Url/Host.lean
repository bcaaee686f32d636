import Telemetry.Net.Ip
import Telemetry.Url.Basic
import Telemetry.Url.Punycode

namespace Telemetry.Url.Host

/-- The number that a part of a short address writes in base eight, ten or sixteen; `none` inside
for one of more than 32 bits. -/
def partNumber? (part : List Char) : Option (Option Nat) :=
  let within (base : Nat) (digits : List Char) : Option (Option Nat) :=
    if digits.all fun c => (Hex.digit? c).any (· < base) then
      let n := digits.foldl (fun n c => n * base + (Hex.digit? c).getD 0) 0
      some (if n < 0x100000000 then some n else none)
    else none
  match part with
  | [] => none
  | '0' :: 'x' :: digits | '0' :: 'X' :: digits => within 16 digits
  | '0' :: c :: digits => within 8 (c :: digits)
  | digits => within 10 digits

def dropLastEmpty (parts : List String) : List String :=
  if parts.getLast? = some "" then parts.dropLast else parts

def endsInNumber (name : String) : Bool :=
  match (dropLastEmpty (Text.split '.' name)).getLast? with
  | some last =>
    (last ≠ "" && last.toList.all Char.isDigit) || (partNumber? last.toList).isSome
  | none => false

/-- The address that the parts of a short notation denote: the last part fills the bytes that are
left. -/
def ofParts? (numbers : List Nat) : Option Net.Ip4 := do
  let last ← numbers.getLast?
  let leading := numbers.dropLast
  if 4 < numbers.length ∨ leading.any (255 < ·) ∨ Nat.pow 256 (4 - leading.length) ≤ last then none
  let n := leading.foldl (fun n part => n * 256 + part) 0 * Nat.pow 256 (4 - leading.length) + last
  return ⟨(n / 0x1000000).toUInt8, (n / 0x10000).toUInt8, (n / 0x100).toUInt8, n.toUInt8⟩

def ip4? (name : String) : Option Net.Ip4 := do
  ofParts? (← (dropLastEmpty (Text.split '.' name)).mapM fun part => do (← partNumber? part.toList))

def bracketed? (text : List Char) : Option String :=
  match text.reverse with
  | ']' :: inner =>
    match Net.ip6 inner.reverse with
    | some (ip, []) => some ("[" ++ ip.toText ++ "]")
    | _ => none
  | _ => none

def isForbidden (c : Char) : Bool :=
  c ∈ ['\x00', '\t', '\n', '\r', ' ', '#', '/', ':', '<', '>', '?', '@', '[', '\\', ']', '^', '|']

def isForbiddenInName (c : Char) : Bool :=
  isForbidden c || c.toNat < 0x20 || c == '%' || c == '\x7f'

def ofText? (text : String) : Option String :=
  match text.toList with
  | '[' :: rest => bracketed? rest
  | _ => do
    let name ← (Percent.decode (Bytes.ofText text)).toText?
    let name := String.ofList (name.toList.map Char.toLower)
    if name = "" ∨ name.toList.any isForbiddenInName then none
    else if endsInNumber name then (ip4? name).map Net.Ip4.toText
    else return Punycode.ofName name

def opaqueOfText? (text : String) : Option String :=
  match text.toList with
  | '[' :: rest => bracketed? rest
  | chars => if chars.any isForbidden then none else some (encode plainVerbatim text)

end Telemetry.Url.Host
