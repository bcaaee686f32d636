import Telemetry.Decimal.Binary64

/-!
Decimal literals: what a run of digits, a point and an exponent denote, and the binary64 number
nearest to it. Reading a literal's text and rounding it are separate, so that each format brings its
own grammar and all of them share one rounding.
-/
namespace Telemetry

structure Decimal where
  negative : Bool
  digits : Nat
  exponent : Int
  deriving DecidableEq, Repr

namespace Decimal

/-- A literal from its written parts: the digits before and after the point, and the exponent. -/
def ofParts (negative : Bool) (whole fraction : List Char) (exponent : Int) : Decimal :=
  ⟨negative, Nat.ofDigitChars 10 (whole ++ fraction) 0, exponent - fraction.length⟩

def top (d : Decimal) : Int := d.exponent + (Nat.toDigits 10 d.digits).length

/-- The nearest binary64 number, a tie going to the even one. A magnitude of `10 ^ 310` or more is
beyond every finite number and one below `10 ^ (-330)` below half the least positive one, so the
powers that are computed stay small whatever exponent is written. -/
def toBinary64 (d : Decimal) : Binary64 :=
  if d.digits = 0 ∨ d.top < -330 then .ofPlace d.negative 0
  else if 310 < d.top then .infinite d.negative
  else .ofFraction d.negative (d.digits * Nat.pow 10 d.exponent.toNat)
    (Nat.pow 10 (-d.exponent).toNat)

def takeSign : List Char → Bool × List Char
  | '-' :: rest => (true, rest)
  | '+' :: rest => (false, rest)
  | text => (false, text)

/-- The exponent part of a literal: none at all, or `e`, an optional sign and digits to the end. -/
def readExponent : List Char → Option Int
  | [] => some 0
  | c :: rest =>
    if c = 'e' ∨ c = 'E' then
      let (negative, digits) := takeSign rest
      if digits ≠ [] ∧ digits.all Char.isDigit then
        let size : Int := Nat.ofDigitChars 10 digits 0
        some (if negative then -size else size)
      else none
    else none

/-- An unsigned literal: digits with an optional point, at least one digit on either side of it,
and an optional exponent. -/
def readUnsigned (negative : Bool) (text : List Char) : Option Decimal :=
  let whole := text.takeWhile Char.isDigit
  let afterWhole := text.dropWhile Char.isDigit
  let afterPoint := match afterWhole with
    | '.' :: rest => rest
    | _ => []
  let fraction := afterPoint.takeWhile Char.isDigit
  let tail := match afterWhole with
    | '.' :: rest => rest.dropWhile Char.isDigit
    | rest => rest
  if whole = [] ∧ fraction = [] then none
  else (readExponent tail).map (ofParts negative whole fraction)

end Decimal

namespace Binary64

/-- The number that a text names: a signed decimal literal, or `inf`, `infinity` or `nan` in any
letter case. -/
def ofText? (text : String) : Option Binary64 :=
  let (negative, unsigned) := Decimal.takeSign text.toList
  match Decimal.readUnsigned negative unsigned with
  | some d => some d.toBinary64
  | none =>
    let name := unsigned.map Char.toLower
    if name = "nan".toList then some .nan
    else if name = "inf".toList ∨ name = "infinity".toList then some (.infinite negative)
    else none

end Binary64

end Telemetry
