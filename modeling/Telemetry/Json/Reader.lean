import Telemetry.Bytes
import Telemetry.Decimal.Integer

/-!
Reading JSON in one pass over bytes. A reader looks at the text ahead and answers a value and the
text after it; the first thing that is wrong decides the fault. Text that is not asked for is
skipped: it must be JSON, but its strings need not be Unicode and its numbers may have any size.
-/
namespace Telemetry.Json

/-- What stops a reader: the text ended early, it is not JSON at this byte, or it is JSON of another
shape than the one asked for. -/
inductive Fault where
  | ended
  | malformed
  | unfit
  deriving DecidableEq, Repr

/-- A reader has a bound on the parts it goes through, for which the length of the text is always
enough, and the text ahead. -/
abbrev Reader (α : Type) := Nat → Bytes → Except Fault (α × Bytes)

def isBlank (b : UInt8) : Bool := b == 0x20 || b == 0x0a || b == 0x09 || b == 0x0d

def isDigit (b : UInt8) : Bool := 0x30 ≤ b && b ≤ 0x39

def skipBlank (input : Bytes) : Bytes := input.dropWhile isBlank

/-! ### Literals -/

def literal : Bytes → Bytes → Except Fault Bytes
  | [], input => .ok input
  | _ :: _, [] => .error .ended
  | b :: word, c :: input => if b = c then literal word input else .error .malformed

def literalAfter : UInt8 → Option Bytes
  | 0x6e => some (Bytes.ofText "ull")
  | 0x74 => some (Bytes.ofText "rue")
  | 0x66 => some (Bytes.ofText "alse")
  | _ => none

/-! ### Strings -/

def simpleEscape : UInt8 → Option UInt8
  | 0x22 => some 0x22
  | 0x5c => some 0x5c
  | 0x2f => some 0x2f
  | 0x62 => some 0x08
  | 0x66 => some 0x0c
  | 0x6e => some 0x0a
  | 0x72 => some 0x0d
  | 0x74 => some 0x09
  | _ => none

def hexDigit (b : UInt8) : Option Nat :=
  if 0x30 ≤ b ∧ b ≤ 0x39 then some (b.toNat - 0x30)
  else if 0x61 ≤ b ∧ b ≤ 0x66 then some (b.toNat - 0x61 + 10)
  else if 0x41 ≤ b ∧ b ≤ 0x46 then some (b.toNat - 0x41 + 10)
  else none

def codeUnit (a b c d : UInt8) : Option Nat := do
  return (((← hexDigit a) * 16 + (← hexDigit b)) * 16 + (← hexDigit c)) * 16 + (← hexDigit d)

def isLeading (unit : Nat) : Bool := 0xd800 ≤ unit && unit < 0xdc00

def isTrailing (unit : Nat) : Bool := 0xdc00 ≤ unit && unit < 0xe000

def utf8 (codePoint : Nat) : Bytes := String.utf8EncodeChar (Char.ofNat codePoint)

def joined (leading trailing : Nat) :
    Nat := 0x10000 + (leading - 0xd800) * 0x400 + (trailing - 0xdc00)

/-- The bytes that a string denotes and the text after its closing quote; `done` are the bytes
before, last first. -/
def stringBytes (done : Bytes) : Bytes → Except Fault (Bytes × Bytes)
  | [] => .error .ended
  | 0x22 :: rest => .ok (done.reverse, rest)
  | 0x5c :: 0x75 :: a :: b :: c :: d :: rest =>
    match codeUnit a b c d with
    | none => .error .malformed
    | some unit =>
      if isTrailing unit then .error .malformed
      else if isLeading unit then
        match rest with
        | [] => .error .ended
        | [0x5c] => .error .ended
        | 0x5c :: 0x75 :: a :: b :: c :: d :: rest =>
          match codeUnit a b c d with
          | none => .error .malformed
          | some second =>
            if isTrailing second then stringBytes ((utf8 (joined unit second)).reverse ++ done) rest
            else .error .malformed
        | 0x5c :: 0x75 :: _ => .error .ended
        | _ => .error .malformed
      else stringBytes ((utf8 unit).reverse ++ done) rest
  | 0x5c :: 0x75 :: _ => .error .ended
  | 0x5c :: e :: rest =>
    match simpleEscape e with
    | some b => stringBytes (b :: done) rest
    | none => .error .malformed
  | [0x5c] => .error .ended
  | b :: rest => if b < 0x20 then .error .malformed else stringBytes (b :: done) rest

/-- The rest of a string after its opening quote; its bytes must be UTF-8. -/
def stringRest (input : Bytes) : Except Fault (String × Bytes) :=
  match stringBytes [] input with
  | .error fault => .error fault
  | .ok (bytes, rest) =>
    match bytes.toText? with
    | some text => .ok (text, rest)
    | none => .error .malformed

def skipString : Bytes → Except Fault Bytes
  | [] => .error .ended
  | 0x22 :: rest => .ok rest
  | 0x5c :: 0x75 :: a :: b :: c :: d :: rest =>
    if (codeUnit a b c d).isSome then skipString rest else .error .malformed
  | 0x5c :: 0x75 :: _ => .error .ended
  | 0x5c :: e :: rest => if (simpleEscape e).isSome then skipString rest else .error .malformed
  | [0x5c] => .error .ended
  | b :: rest => if b < 0x20 then .error .malformed else skipString rest

/-! ### Numbers -/

/-- A number literal: its exact value, and whether it was written without point and exponent. -/
structure Number where
  value : Decimal
  integral : Bool
  deriving DecidableEq, Repr

def spanDigits (input : Bytes) : List Char × Bytes :=
  ((input.takeWhile isDigit).map fun b => Char.ofNat b.toNat, input.dropWhile isDigit)

def someDigits (input : Bytes) : Except Fault (List Char × Bytes) :=
  match spanDigits input with
  | ([], []) => .error .ended
  | ([], _) => .error .malformed
  | digits => .ok digits

def wholePart (input : Bytes) : Except Fault (List Char × Bytes) :=
  match someDigits input with
  | .ok ('0' :: _ :: _, _) => .error .malformed
  | digits => digits

def fractionPart : Bytes → Except Fault (Option (List Char) × Bytes)
  | 0x2e :: rest => do
    let (digits, rest) ← someDigits rest
    return (some digits, rest)
  | input => .ok (none, input)

def exponentPart : Bytes → Except Fault (Option Int × Bytes)
  | e :: rest =>
    if e = 0x65 ∨ e = 0x45 then do
      let (negative, rest) := match rest with
        | 0x2b :: rest => (false, rest)
        | 0x2d :: rest => (true, rest)
        | rest => (false, rest)
      let (digits, rest) ← someDigits rest
      let size : Int := Nat.ofDigitChars 10 digits 0
      return (some (if negative then -size else size), rest)
    else .ok (none, e :: rest)
  | [] => .ok (none, [])

def unsigned (negative : Bool) (input : Bytes) : Except Fault (Number × Bytes) := do
  let (whole, input) ← wholePart input
  let (fraction, input) ← fractionPart input
  let (exponent, input) ← exponentPart input
  return (⟨.ofParts negative whole (fraction.getD []) (exponent.getD 0),
    fraction.isNone && exponent.isNone⟩, input)

def number : Bytes → Except Fault (Number × Bytes)
  | 0x2d :: rest => unsigned true rest
  | input => unsigned false input

/-- The text after a number that is not asked for; one that breaks off is malformed. -/
def skipNumber (input : Bytes) : Except Fault Bytes :=
  match number input with
  | .ok (_, rest) => .ok rest
  | .error _ => .error .malformed

def beginsNumber (b : UInt8) : Bool := isDigit b || b == 0x2d

def Number.toBinary64? (n : Number) : Option Binary64 :=
  let value := n.value.toBinary64
  if value.isFinite then some value else none

/-- The 64-bit integer that the literal writes; negative zero is none. -/
def Number.toInt64? (n : Number) : Option Int64 :=
  if n.integral && !(n.value.negative && n.value.digits == 0) then
    Decimal.toInt64? (if n.value.negative then -n.value.digits else n.value.digits)
  else none

/-! ### Values of another shape -/

/-- The fault of a value that begins with `b` where another shape is asked for. What is no bracket
is read to its end first. -/
def misfit (b : UInt8) (rest : Bytes) : Fault :=
  if b = 0x22 then
    match stringRest rest with
    | .ok _ => .unfit
    | .error fault => fault
  else if beginsNumber b then
    match number (b :: rest) with
    | .ok (n, _) => if n.toBinary64?.isSome then .unfit else .malformed
    | .error fault => fault
  else if b = 0x5b ∨ b = 0x7b then .unfit
  else
    match literalAfter b with
    | some word =>
      match literal word rest with
      | .ok _ => .unfit
      | .error fault => fault
    | none => .malformed

def onFirst {α : Type} (read : UInt8 → Bytes → Except Fault (α × Bytes)) :
    Reader α := fun _ input =>
  match skipBlank input with
  | [] => .error .ended
  | b :: rest => read b rest

def mapped {α β : Type} (f : α → β) (read : Reader α) : Reader β := fun bound input =>
  (read bound input).map fun (value, rest) => (f value, rest)

def text : Reader String := onFirst fun b rest =>
  if b = 0x22 then stringRest rest else .error (misfit b rest)

def binary64 : Reader Binary64 := onFirst fun b rest =>
  if beginsNumber b then do
    let (n, rest) ← number (b :: rest)
    match n.toBinary64? with
    | some value => return (value, rest)
    | none => throw .malformed
  else .error (misfit b rest)

/-- An integer literal in range; one without point or exponent is unfit however long it is. -/
def int64 : Reader Int64 := onFirst fun b rest =>
  if beginsNumber b then do
    let (n, rest) ← number (b :: rest)
    match n.toInt64? with
    | some value => return (value, rest)
    | none => throw (if n.integral || n.toBinary64?.isSome then .unfit else .malformed)
  else .error (misfit b rest)

def null : Reader Unit := onFirst fun b rest =>
  if b = 0x6e then (literal (Bytes.ofText "ull") rest).map ((), ·) else .error (misfit b rest)

def optional {α : Type} (read : Reader α) : Reader (Option α) := fun bound input =>
  match skipBlank input with
  | 0x6e :: rest => (literal (Bytes.ofText "ull") rest).map (none, ·)
  | _ => mapped some read bound input

/-- Reads a whole document: one value with nothing but blanks around it. -/
def document {α : Type} (read : Reader α) (input : Bytes) : Except Fault α := do
  let (value, rest) ← read (input.length + 1) input
  if (skipBlank rest).isEmpty then return value else throw .malformed

end Telemetry.Json
