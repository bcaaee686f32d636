import Telemetry.Json.Writer
import Telemetry.Proofs.Json.Scalar

namespace Telemetry.Json

theorem codeUnit_control : ∀ n < 32,
    codeUnit 0x30 0x30 (hexDigitOf (n / 16)) (hexDigitOf (n % 16)) = some n := by
  decide

theorem utf8_control : ∀ n < 32, utf8 n = [n.toUInt8] := by
  decide

theorem stringBytes_plain {b : UInt8} (notQuote : b ≠ 0x22) (notBackslash : b ≠ 0x5c)
    (visible : ¬ b < 0x20) (done rest : Bytes) :
    stringBytes done (b :: rest) = stringBytes (b :: done) rest := by
  rw [stringBytes.eq_def]
  split
  case h_1 same => cases same
  case h_2 same =>
    injection same with head
    exact absurd head notQuote
  case h_3 same =>
    injection same with head
    exact absurd head notBackslash
  case h_4 same =>
    injection same with head
    exact absurd head notBackslash
  case h_5 same =>
    injection same with head
    exact absurd head notBackslash
  case h_6 same =>
    injection same with head
    exact absurd head notBackslash
  case h_7 same =>
    injection same with head tail
    subst head tail
    rw [if_neg visible]

theorem stringBytes_escape (b : UInt8) (done rest : Bytes) :
    stringBytes done (escape b ++ rest) = stringBytes (b :: done) rest := by
  unfold escape
  split
  case isTrue special =>
    rcases special with rfl | rfl <;> rfl
  split
  case isTrue same =>
    subst same
    rfl
  split
  case isTrue same =>
    subst same
    rfl
  split
  case isTrue same =>
    subst same
    rfl
  split
  case isTrue same =>
    subst same
    rfl
  split
  case isTrue same =>
    subst same
    rfl
  split
  case isTrue control =>
    have small : b.toNat < 32 := control
    have unit := codeUnit_control b.toNat small
    have bytes := utf8_control b.toNat small
    have notTrailing : isTrailing b.toNat = false := by
      simp only [isTrailing, Bool.and_eq_false_iff, decide_eq_false_iff_not]
      omega
    have notLeading : isLeading b.toNat = false := by
      simp only [isLeading, Bool.and_eq_false_iff, decide_eq_false_iff_not]
      omega
    have self : b.toNat.toUInt8 = b := UInt8.ofNat_toNat
    change stringBytes done (0x5c :: 0x75 :: 0x30 :: 0x30 :: _ :: _ :: rest) = _
    rw [stringBytes, unit]
    simp only [notTrailing, notLeading, bytes, self]
    rfl
  case isFalse special _ _ _ _ _ visible =>
    exact stringBytes_plain (fun same => special (.inl same)) (fun same => special (.inr same))
      visible done rest

theorem stringBytes_flatMap (bytes done rest : Bytes) :
    stringBytes done (bytes.flatMap escape ++ 0x22 :: rest) =
      .ok (done.reverse ++ bytes, rest) := by
  induction bytes generalizing done with
  | nil => rw [List.flatMap_nil, List.nil_append, stringBytes, List.append_nil]
  | cons b others ih =>
    rw [List.flatMap_cons, List.append_assoc, stringBytes_escape, ih, List.reverse_cons,
      List.append_assoc, List.singleton_append]

theorem stringRest_quoted (text : String) (rest : Bytes) :
    stringRest ((Bytes.ofText text).flatMap escape ++ 0x22 :: rest) = .ok (text, rest) := by
  rw [stringRest, stringBytes_flatMap, List.reverse_nil, List.nil_append]
  simp only [Bytes.toText?_ofText]

theorem quoted_append (text : String) (rest : Bytes) :
    quoted text ++ rest = 0x22 :: ((Bytes.ofText text).flatMap escape ++ 0x22 :: rest) := by
  rw [quoted, List.cons_append, List.append_assoc, List.singleton_append]

theorem reads_text (value : String) (bound : Nat) : Reads text bound (quoted value) value := by
  intro rest _
  rw [quoted_append, text, onFirst_cons _ _ rfl, if_pos rfl, stringRest_quoted]

end Telemetry.Json
