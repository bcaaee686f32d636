import Telemetry.Decimal.Integer

/-!
The arithmetic of a relational store. Its terms are evaluated in 64-bit integers and have no value
when a result does not fit. A counter's total may only be replaced by its sum with a delta where a
guard holds, which must therefore be decided without forming that sum.
-/
namespace Telemetry.Guard

inductive Term where
  | stored
  | delta
  | literal (n : Int64)
  | plus (a b : Term)
  | minus (a b : Term)
  deriving DecidableEq, Repr

inductive Condition where
  | atMost (a b : Term)
  | atLeast (a b : Term)
  | choose (condition yes no : Condition)
  deriving DecidableEq, Repr

def Term.eval (total delta : Int64) : Term → Option Int64
  | .stored => some total
  | .delta => some delta
  | .literal n => some n
  | .plus a b => do Decimal.toInt64? ((← a.eval total delta).toInt + (← b.eval total delta).toInt)
  | .minus a b => do Decimal.toInt64? ((← a.eval total delta).toInt - (← b.eval total delta).toInt)

/-- The truth of a condition; only the branch that is chosen is evaluated. -/
def Condition.eval (total delta : Int64) : Condition → Option Bool
  | .atMost a b => do return (← a.eval total delta).toInt ≤ (← b.eval total delta).toInt
  | .atLeast a b => do return (← b.eval total delta).toInt ≤ (← a.eval total delta).toInt
  | .choose condition yes no => do
    if ← condition.eval total delta then yes.eval total delta else no.eval total delta

def largest : Term := .literal 9223372036854775807

/-- The least integer, written as a difference since its own literal does not fit. -/
def least : Term := .minus (.literal (-9223372036854775807)) (.literal 1)

def fits : Condition :=
  .choose (.atLeast .delta (.literal 0))
    (.atMost .stored (.minus largest .delta))
    (.atLeast .stored (.minus least .delta))

def newTotal : Term := .plus .stored .delta

end Telemetry.Guard
