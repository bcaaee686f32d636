import Telemetry.Bytes
import Telemetry.Decimal.Integer

namespace Telemetry.Json

def hexDigitOf (n : Nat) : UInt8 := (Nat.digitChar n).toNat.toUInt8

def escape (b : UInt8) : Bytes :=
  if b = 0x22 ∨ b = 0x5c then [0x5c, b]
  else if b = 0x08 then [0x5c, 0x62]
  else if b = 0x09 then [0x5c, 0x74]
  else if b = 0x0a then [0x5c, 0x6e]
  else if b = 0x0c then [0x5c, 0x66]
  else if b = 0x0d then [0x5c, 0x72]
  else if b < 0x20 then
    [0x5c, 0x75, 0x30, 0x30, hexDigitOf (b.toNat / 16), hexDigitOf (b.toNat % 16)]
  else [b]

def quoted (text : String) : Bytes := 0x22 :: ((Bytes.ofText text).flatMap escape ++ [0x22])

open Decimal in
/-- The decimal `digits * 10 ^ exponent` as a JSON number: positional with at least one place while
the leading digit's exponent is from -5 to 15, and scientific beyond. -/
def decimalNumber (digits : Nat) (exponent : Int) : List Char :=
  let written := Nat.toDigits 10 digits
  let leading := exponent + written.length - 1
  if -5 ≤ leading ∧ leading ≤ 15 then
    if 0 ≤ exponent then Decimal.positional written exponent ++ ['.', '0']
    else Decimal.positional written exponent
  else scientific written leading

open Decimal in
/-- A binary64 number by its shortest decimal; what is not finite is `null`. -/
def ofBinary64 : Binary64 → Bytes
  | .finite negative place =>
    Bytes.ofAscii (sign negative (
      if place.val = 0 then "0.0".toList
      else
        let decimal := Binary64.shortest .toEven place.val
        decimalNumber decimal.1 decimal.2))
  | _ => Bytes.ofText "null"

def ofInt64 (n : Int64) : Bytes := Bytes.ofAscii (Decimal.writeInt64 n)

def bracketed (opening closing : UInt8) (parts : List Bytes) : Bytes :=
  opening :: (parts.intersperse [0x2c]).flatten ++ [closing]

def array (parts : List Bytes) : Bytes := bracketed 0x5b 0x5d parts

def object (parts : List (String × Bytes)) : Bytes :=
  bracketed 0x7b 0x7d (parts.map fun (name, value) => quoted name ++ 0x3a :: value)

end Telemetry.Json
