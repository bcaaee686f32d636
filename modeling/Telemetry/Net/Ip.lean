import Telemetry.Text.Hex

namespace Telemetry.Net

abbrev Reader (α : Type) := List Char → Option (α × List Char)

structure Ip4 where
  a : UInt8
  b : UInt8
  c : UInt8
  d : UInt8
  deriving DecidableEq, Repr

structure Ip6 where
  groups : List UInt16
  length_groups : groups.length = 8
  deriving DecidableEq, Repr

/-- A decimal number of at most `limit`, however many zeros it begins with. -/
def decimal (limit : Nat) : Reader Nat := fun text =>
  let digits := text.takeWhile Char.isDigit
  let n := Nat.ofDigitChars 10 digits 0
  if digits ≠ [] ∧ n ≤ limit then some (n, text.dropWhile Char.isDigit) else none

def octet : Reader UInt8 := fun text =>
  match text with
  | '0' :: c :: _ => if c.isDigit then none else some (0, text.drop 1)
  | _ => (decimal 255 text).map fun (n, rest) => (n.toUInt8, rest)

def expect (c : Char) : List Char → Option (List Char)
  | head :: rest => if head = c then some rest else none
  | [] => none

def ip4 : Reader Ip4 := fun text => do
  let (a, rest) ← octet text
  let (b, rest) ← octet (← expect '.' rest)
  let (c, rest) ← octet (← expect '.' rest)
  let (d, rest) ← octet (← expect '.' rest)
  return (⟨a, b, c, d⟩, rest)

def group : Reader UInt16 := fun text =>
  let isDigit (c : Char) := (Hex.digit? c).isSome
  let digits := text.takeWhile isDigit
  if digits ≠ [] ∧ digits.length ≤ 4 then
    let n := digits.foldl (fun n c => n * 16 + (Hex.digit? c).getD 0) 0
    some (n.toUInt16, text.dropWhile isDigit)
  else none

def Ip4.groups (ip : Ip4) : List UInt16 :=
  [ip.a.toUInt16 * 256 + ip.b.toUInt16, ip.c.toUInt16 * 256 + ip.d.toUInt16]

/-- At most `room` groups with colons between them, the last two perhaps in dotted form; whether
they are, and the text after them. -/
def groups : Nat → Bool → List Char → List UInt16 × Bool × List Char
  | 0, _, text => ([], false, text)
  | room + 1, first, text =>
    match if first then some text else expect ':' text with
    | none => ([], false, text)
    | some body =>
      match if room = 0 then none else ip4 body with
      | some (ip, rest) => (ip.groups, true, rest)
      | none =>
        match group body with
        | none => ([], false, text)
        | some (g, rest) =>
          let (more, dotted, rest) := groups room false rest
          (g :: more, dotted, rest)

def Ip6.ofGroups? (groups : List UInt16) : Option Ip6 :=
  if h : groups.length = 8 then some ⟨groups, h⟩ else none

/-- Eight groups, or fewer with a double colon for at least one zero group. -/
def ip6 : Reader Ip6 := fun text => do
  let (front, dotted, rest) := groups 8 true text
  if front.length = 8 then return (← Ip6.ofGroups? front, rest)
  if dotted then none
  let (back, _, rest) := groups (7 - front.length) true (← expect ':' (← expect ':' rest))
  let zeros := List.replicate (8 - front.length - back.length) 0
  return (← Ip6.ofGroups? (front ++ zeros ++ back), rest)

/-! ### Written forms -/

def Ip4.toText (ip : Ip4) : String :=
  ".".intercalate ([ip.a, ip.b, ip.c, ip.d].map fun n => toString n.toNat)

def groupText (g : UInt16) : String := String.ofList (Nat.toDigits 16 g.toNat)

def groupsText (groups : List UInt16) : String := ":".intercalate (groups.map groupText)

/-- Where the longest run of zero groups begins, the first of equally long ones, and its length. -/
def longestZeros (groups : List UInt16) : Nat × Nat :=
  (List.range groups.length).foldl (fun best start =>
    let length := ((groups.drop start).takeWhile (· == 0)).length
    if best.2 < length then (start, length) else best) (0, 0)

/-- An address that stands for a dotted one is written so; else the longest run of at least two zero
groups is left out. -/
def Ip6.toText (ip : Ip6) : String :=
  match ip.groups with
  | [0, 0, 0, 0, 0, 0xffff, high, low] =>
    "::ffff:" ++ Ip4.toText ⟨(high / 256).toUInt8, high.toUInt8, (low / 256).toUInt8, low.toUInt8⟩
  | groups =>
    let (start, length) := longestZeros groups
    if length < 2 then groupsText groups
    else groupsText (groups.take start) ++ "::" ++ groupsText (groups.drop (start + length))

end Telemetry.Net
