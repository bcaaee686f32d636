import Telemetry.Text.Cut

namespace Telemetry.Url.Punycode

def digit (n : Nat) :
    Char := if n < 26 then Char.ofNat ('a'.toNat + n) else Char.ofNat ('0'.toNat + n - 26)

/-- The least value of a digit that another one follows, at position `k`. -/
def threshold (bias k : Nat) : Nat := min 26 (max 1 (k - bias))

/-- A number in digits of growing weight, the least one first; the last one is below its threshold.
-/
def digits (bias k q : Nat) : List Char :=
  let t := threshold bias k
  if q < t then [digit q]
  else digit (t + (q - t) % (36 - t)) :: digits bias (k + 36) ((q - t) / (36 - t))
termination_by q
decreasing_by
  have low : 1 ≤ threshold bias k := by unfold threshold; omega
  have : (q - threshold bias k) / (36 - threshold bias k) ≤ q - threshold bias k :=
    Nat.div_le_self _ _
  omega

def spread (k delta : Nat) : Nat :=
  if delta ≤ 455 then k + 36 * delta / (delta + 38) else spread (k + 36) (delta / 35)
termination_by delta

/-- The bias after a number of steps, of which the first is weighed less. -/
def adapt (delta count : Nat) (first : Bool) : Nat :=
  let delta := if first then delta / 700 else delta / 2
  spread 0 (delta + delta / count)

/-- An encoding under way: the characters that are done are those below `next`. -/
structure Draft where
  next : Nat := 128
  delta : Nat := 0
  bias : Nat := 72
  done : Nat
  written : List Char

/-- Goes over a label once, writing each occurrence of the character that is due. -/
def Draft.pass (basic : Nat) (label : List Nat) (draft : Draft) (due : Nat) : Draft :=
  let start :=
    { draft with next := due, delta := draft.delta + (due - draft.next) * (draft.done + 1) }
  let after := label.foldl (fun d c =>
    if c < due then { d with delta := d.delta + 1 }
    else if c = due then
      { d with
        delta := 0
        bias := adapt d.delta (d.done + 1) (d.done = basic)
        done := d.done + 1
        written := d.written ++ digits d.bias 36 d.delta }
    else d) start
  { after with next := due + 1, delta := after.delta + 1 }

def encode (label : List Char) : List Char :=
  let basic := label.filter fun c => c.toNat < 128
  let others := ((label.map Char.toNat).filter (128 ≤ ·)).mergeSort.eraseDups
  let lead := if basic.isEmpty then [] else basic ++ ['-']
  (others.foldl (Draft.pass basic.length (label.map Char.toNat))
    { done := basic.length, written := lead }).written

def ofName (name : String) : String :=
  ".".intercalate ((Text.split '.' name).map fun label =>
    if label.toList.all fun c => c.toNat < 128 then label
    else "xn--" ++ String.ofList (encode label.toList))

end Telemetry.Url.Punycode
