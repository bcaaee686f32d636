import Telemetry.Decimal.Binary64

/-!
The shortest decimal of a binary64 magnitude: the fewest digits that read back, and of these the
nearest. Every magnitude is a whole number of `10 ^ (-depth)`, so the search divides one natural
number by falling powers of ten.
-/
namespace Telemetry.Binary64

inductive Tie where
  | upward
  | toEven
  deriving DecidableEq, Repr

def exactDigits (place : Nat) : Nat := Nat.pow 5 depth * units place

/-- Whether `digits * 10 ^ (drop - depth)` reads back as the magnitude at `place`. -/
def readsBack (place digits drop : Nat) : Bool :=
  nearestPlace (digits * Nat.pow 10 drop) (Nat.pow 10 depth) == place

/-- Of two neighbouring decimals the one nearer to `exact`, with `rest` the distance to the lower
one and `step` the distance between them. -/
def nearer (tie : Tie) (low rest step : Nat) : Nat :=
  if 2 * rest < step then low
  else if step < 2 * rest then low + 1
  else match tie with
    | .upward => low + 1
    | .toEven => low + low % 2

def choose (low nearest : Nat) : Bool → Bool → Option Nat
  | true, true => some nearest
  | true, false => some low
  | false, true => some (low + 1)
  | false, false => none

/-- The decimal in steps of `10 ^ (drop - depth)` that reads back as the place, nearest if two do.
-/
def pick (tie : Tie) (place drop : Nat) : Option Nat :=
  let step := Nat.pow 10 drop
  let low := exactDigits place / step
  choose low (nearer tie low (exactDigits place % step) step)
    (readsBack place low drop) (readsBack place (low + 1) drop)

/-- The first hit with falling numbers of dropped digits, and that number; with none dropped it is
`exact`. -/
def firstHit (hit : Nat → Option Nat) (exact : Nat) : Nat → Nat × Nat
  | 0 => (exact, 0)
  | drop + 1 =>
    match hit (drop + 1) with
    | some digits => (digits, drop + 1)
    | none => firstHit hit exact drop

/-- The first hit on ever finer decimals, up to the magnitude written exactly. -/
def search (tie : Tie) (place : Nat) :
    Nat → Nat × Nat := firstHit (pick tie place) (exactDigits place)

/-- The shortest decimal of a magnitude: its digits and the power of ten they count. -/
def shortest (tie : Tie) (place : Nat) : Nat × Int :=
  let found := search tie place (Nat.toDigits 10 (exactDigits place)).length
  (found.1, (found.2 : Int) - depth)

theorem nearer_eq_or (tie : Tie) (low rest step : Nat) :
    nearer tie low rest step = low ∨ nearer tie low rest step = low + 1 := by
  unfold nearer
  split
  · exact .inl rfl
  split
  · exact .inr rfl
  cases tie
  · exact .inr rfl
  · rcases Nat.mod_two_eq_zero_or_one low with h | h <;> simp [h]

theorem choose_hits {low nearest digits : Nat} {hits : Nat → Bool}
    (near : nearest = low ∨ nearest = low + 1)
    (found : choose low nearest (hits low) (hits (low + 1)) = some digits) :
    hits digits = true := by
  cases lowHit : hits low <;> cases highHit : hits (low + 1) <;>
    simp only [choose, lowHit, highHit, Option.some.injEq, reduceCtorEq] at found <;> subst found
  · exact highHit
  · exact lowHit
  · rcases near with h | h <;> rw [h] <;> assumption

theorem readsBack_of_pick {tie : Tie} {place drop digits : Nat}
    (found : pick tie place drop = some digits) : readsBack place digits drop = true :=
  @choose_hits _ _ _ (readsBack place · drop) (nearer_eq_or tie _ _ _) found

end Telemetry.Binary64
