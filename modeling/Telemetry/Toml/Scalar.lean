import Telemetry.Decimal.Integer
import Telemetry.Toml.Tree

namespace Telemetry.Toml

/-- Digits of a base in which single underscores may stand between two digits. -/
def readDigits (isDigit : Char → Bool) : List Char → Option (List Char)
  | [] => none
  | [c] => if isDigit c then some [c] else none
  | c :: '_' :: rest => if isDigit c then (readDigits isDigit rest).map (c :: ·) else none
  | c :: rest => if isDigit c then (readDigits isDigit rest).map (c :: ·) else none

def isHexDigit (c : Char) : Bool := c.isDigit || ('a' ≤ c && c ≤ 'f') || ('A' ≤ c && c ≤ 'F')

def hexValue (c : Char) : Nat :=
  if c.isDigit then c.toNat - '0'.toNat
  else if 'a' ≤ c then c.toNat - 'a'.toNat + 10
  else c.toNat - 'A'.toNat + 10

def natOfDigits (base : Nat) (digits : List Char) : Nat :=
  digits.foldl (fun n c => n * base + hexValue c) 0

def readWhole (text : List Char) : Option (List Char) :=
  match readDigits Char.isDigit text with
  | some ('0' :: _ :: _) => none
  | digits => digits

def integer? (value : Int) : Option Node :=
  if Decimal.FitsInt64 value then some (.integer value) else none

def readInteger (word : List Char) : Option Node :=
  match word with
  | '0' :: 'x' :: rest => (readDigits isHexDigit rest).bind fun ds => integer? (natOfDigits 16 ds)
  | '0' :: 'o' :: rest =>
    (readDigits (fun c => '0' ≤ c && c ≤ '7') rest).bind fun ds => integer? (natOfDigits 8 ds)
  | '0' :: 'b' :: rest =>
    (readDigits (fun c => c == '0' || c == '1') rest).bind fun ds => integer? (natOfDigits 2 ds)
  | _ =>
    let (negative, digits) := Decimal.takeSign word
    (readWhole digits).bind fun ds =>
      let size : Int := natOfDigits 10 ds
      integer? (if negative then -size else size)

/-- The part of a word before a character, and the part after it if it is there. -/
def cutAt (stops : Char → Bool) (word : List Char) : List Char × Option (List Char) :=
  match word.dropWhile (! stops ·) with
  | [] => (word, none)
  | _ :: rest => (word.takeWhile (! stops ·), some rest)

/-- A number with a fraction or an exponent. One that rounds to positive infinity is refused. -/
def readReal (word : List Char) : Option Node := do
  let (negative, unsigned) := Decimal.takeSign word
  if unsigned = "inf".toList ∨ unsigned = "nan".toList then return .real
  let (mantissa, exponent) := cutAt (fun c => c == 'e' || c == 'E') unsigned
  let (whole, fraction) := cutAt (· == '.') mantissa
  if fraction.isNone && exponent.isNone then none
  let whole ← readWhole whole
  let fraction ← match fraction with
    | none => some []
    | some digits => readDigits Char.isDigit digits
  let exponent : Int ← match exponent with
    | none => some 0
    | some text =>
      let (negative, digits) := Decimal.takeSign text
      (readDigits Char.isDigit digits).map fun ds =>
        let size : Int := natOfDigits 10 ds
        if negative then -size else size
  if (Decimal.ofParts negative whole fraction exponent).toBinary64 = .infinite false then none
  return .real

/-! ### Dates and times -/

def twoDigits (low high : Nat) (a b : Char) : Option Nat :=
  if a.isDigit && b.isDigit then
    let n := natOfDigits 10 [a, b]
    if low ≤ n ∧ n ≤ high then some n else none
  else none

def isLeapYear (year : Nat) : Bool := year % 4 == 0 && (year % 100 != 0 || year % 400 == 0)

def daysIn (year month : Nat) : Nat :=
  if month = 2 then if isLeapYear year then 29 else 28
  else if month ∈ [4, 6, 9, 11] then 30
  else 31

def afterDate : List Char → Option (List Char)
  | y₁ :: y₂ :: y₃ :: y₄ :: '-' :: m₁ :: m₂ :: '-' :: d₁ :: d₂ :: rest => do
    if !([y₁, y₂, y₃, y₄].all Char.isDigit) then none
    let month ← twoDigits 1 12 m₁ m₂
    let _ ← twoDigits 1 (daysIn (natOfDigits 10 [y₁, y₂, y₃, y₄]) month) d₁ d₂
    return rest
  | _ => none

/-- The text after a time of day, if the text begins with one; a minute may have a leap second. -/
def afterTime : List Char → Option (List Char)
  | h₁ :: h₂ :: ':' :: m₁ :: m₂ :: ':' :: s₁ :: s₂ :: rest => do
    let _ ← twoDigits 0 23 h₁ h₂
    let _ ← twoDigits 0 59 m₁ m₂
    let _ ← twoDigits 0 60 s₁ s₂
    match rest with
    | '.' :: d :: more => if d.isDigit then some (more.dropWhile Char.isDigit) else none
    | _ => return rest
  | _ => none

def isOffset : List Char → Bool
  | [] => true
  | [c] => c == 'Z' || c == 'z'
  | [s, h₁, h₂, ':', m₁, m₂] =>
    (s == '+' || s == '-') && (twoDigits 0 23 h₁ h₂).isSome && (twoDigits 0 59 m₁ m₂).isSome
  | _ => false

def isDate (word : List Char) : Bool := afterDate word == some []

def isTimeOfDay (word : List Char) : Bool :=
  match afterTime word with
  | some rest => isOffset rest
  | none => false

def isMoment (word : List Char) : Bool :=
  match afterDate word with
  | some (t :: rest) => (t == 'T' || t == 't') && isTimeOfDay rest
  | some [] => true
  | none => afterTime word == some []

def Node.ofWord? (word : List Char) : Option Node :=
  if word = "true".toList then some (.boolean true)
  else if word = "false".toList then some (.boolean false)
  else if isMoment word then some .moment
  else (readInteger word).or (readReal word)

end Telemetry.Toml
