/-!
Binary64 numbers by the place they hold on their own scale.

The finite magnitudes form one ascending scale: place `0` is zero, place `1` the least subnormal,
and so on up to the largest finite magnitude. `units` gives the magnitude at a place in units of
the least one, exactly, and `nearestPlace` finds the place nearest to a fraction, a tie going to the
even place.
-/
namespace Telemetry

/-- A binary64 number. The place is the magnitude's 63-bit pattern, so both zeros are kept apart
and nothing but the payload of a NaN is lost. -/
inductive Binary64 where
  | nan
  | infinite (negative : Bool)
  | finite (negative : Bool) (place : Fin 0x7ff0000000000000)
  deriving DecidableEq, Repr

namespace Binary64

/-- The number of finite magnitudes; the place after the last one would be infinity. -/
def places : Nat := 0x7ff0000000000000

/-- Every finite magnitude is a whole number of `2 ^ (-depth)`. It stays folded in proofs, where the
powers of this size only occur as factors, on the left: multiplication recurses on the right. -/
@[irreducible] def depth : Nat := 1074

/-- How many places lie between a power of two and the next one, and how many below the least power
that is written with a leading one. -/
def binade : Nat := 0x10000000000000

def units (place : Nat) : Nat :=
  if place < 2 * binade then place
  else (binade + place % binade) * Nat.pow 2 (place / binade - 1)

/-- The place nearest to `num / den`, a tie going to the even place. Places from `places` on mean
that the fraction rounds to infinity. -/
def nearestPlace (num den : Nat) : Nat :=
  let scaled := Nat.pow 2 depth * num
  let shift := (scaled / den).log2 + 1 - 53
  let step := den * Nat.pow 2 shift
  let place := binade * shift + scaled / step
  let rest := 2 * (scaled % step)
  if rest < step then place
  else if step < rest then place + 1
  else place + place % 2

/-- The number with a sign and a magnitude's place, infinite beyond the last place. -/
def ofPlace (negative : Bool) (place : Nat) : Binary64 :=
  if within : place < 0x7ff0000000000000 then .finite negative ⟨place, within⟩
  else .infinite negative

def ofFraction (negative : Bool) (num den : Nat) : Binary64 :=
  ofPlace negative (nearestPlace num den)

def isFinite : Binary64 → Bool
  | .finite .. => true
  | _ => false

def isNaN : Binary64 → Bool
  | .nan => true
  | _ => false

def isZero : Binary64 → Bool
  | .finite _ place => place.val == 0
  | _ => false

def zero : Binary64 := .finite false ⟨0, by decide⟩

def negativeZero : Binary64 := .finite true ⟨0, by decide⟩

/-- Forgets the sign of zero, as a channel does that leaves zeros out or stores them as integers. -/
def dropZeroSign (v : Binary64) : Binary64 :=
  if v.isZero then zero else v

theorem units_of_small {place : Nat} (small : place < 2 * binade) : units place = place := by
  simp only [units, if_pos small]

theorem dropZeroSign_of_ne_zero {v : Binary64} (h : v.isZero = false) : v.dropZeroSign = v := by
  simp [dropZeroSign, h]

theorem dropZeroSign_idem (v : Binary64) : v.dropZeroSign.dropZeroSign = v.dropZeroSign := by
  cases h : v.isZero <;> simp [dropZeroSign, h]

end Binary64
end Telemetry
