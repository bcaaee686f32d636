import Telemetry.Decimal.Shortest

namespace Telemetry.Decimal

/-- Digits times a power of ten, with a point where one is needed and no exponent. -/
def positional (digits : List Char) : Int → List Char
  | .ofNat zeros => digits ++ List.replicate zeros '0'
  | .negSucc k =>
    let places := k + 1
    if digits.length ≤ places then
      '0' :: '.' :: List.replicate (places - digits.length) '0' ++ digits
    else digits.take (digits.length - places) ++ '.' :: digits.drop (digits.length - places)

def scientific (digits : List Char) (exponent : Int) : List Char :=
  let mantissa := match digits with
    | first :: second :: rest => first :: '.' :: second :: rest
    | one => one
  mantissa ++ 'e' :: (if exponent < 0 then '-' else '+') :: Nat.toDigits 10 exponent.natAbs

/-- The nearest whole number of steps in `num / den`, a tie going to the even one. -/
def roundHalfEven (num den : Nat) : Nat :=
  let low := num / den
  let rest := 2 * (num % den)
  if rest < den then low else if den < rest then low + 1 else low + low % 2

/-- A count of `10 ^ (-places)` as a decimal with exactly that many places. -/
def fixedPoint (places count : Nat) : List Char :=
  let fraction := Nat.toDigits 10 (count % Nat.pow 10 places)
  Nat.toDigits 10 (count / Nat.pow 10 places) ++
    '.' :: (List.replicate (places - fraction.length) '0' ++ fraction)

def sign (negative : Bool) (text : List Char) : List Char :=
  if negative then '-' :: text else text

end Telemetry.Decimal

namespace Telemetry.Binary64

open Decimal in
/-- The shortest decimal without an exponent: `5`, `-0`, `0.0000001`, `NaN`, `inf`, `-inf`. -/
def toText : Binary64 → String
  | .nan => "NaN"
  | .infinite negative => String.ofList (sign negative "inf".toList)
  | .finite negative place =>
    if place.val = 0 then String.ofList (sign negative ['0'])
    else
      let decimal := shortest .upward place.val
      String.ofList (sign negative (positional (Nat.toDigits 10 decimal.1) decimal.2))

open Decimal in
/-- The exact value rounded to a number of places, a tie going to the even digit. -/
def toFixed (places : Nat) : Binary64 → String
  | .nan => "NaN"
  | .infinite negative => String.ofList (sign negative "inf".toList)
  | .finite negative place =>
    String.ofList (sign negative
      (fixedPoint places (roundHalfEven (units place.val * Nat.pow 10 places) (Nat.pow 2 depth))))

end Telemetry.Binary64
