import Mathlib.Tactic.SplitIfs
import Telemetry.Proofs.Http.Message
import Telemetry.Table

namespace Telemetry.Bytes

theorem utf8EncodeChar_append_lt {c d : Char} (before : c < d) (front back : Bytes) :
    String.utf8EncodeChar c ++ front < String.utf8EncodeChar d ++ back := by
  have below : c.val.toNat < d.val.toNat := before
  have top : d.val.toNat < 0x110000 := by
    have valid := d.valid
    unfold UInt32.isValidChar Nat.isValidChar at valid
    omega
  -- Each byte but the first brings six bits.
  have twice : ∀ n : Nat, n / 4096 = n / 64 / 64 := by omega
  have thrice : ∀ n : Nat, n / 262144 = n / 64 / 64 / 64 := by omega
  unfold String.utf8EncodeChar
  dsimp only
  split_ifs
  all_goals
    simp only [List.cons_append, List.nil_append, List.cons_lt_cons_iff, UInt8.lt_iff_toNat_lt,
      ← UInt8.toNat_inj, UInt8.toNat_ofNat', twice, thrice]
    omega

theorem flatMap_utf8EncodeChar_lt {text other : List Char} (before : text < other) :
    text.flatMap String.utf8EncodeChar < other.flatMap String.utf8EncodeChar := by
  induction before with
  | @nil c rest =>
    obtain ⟨b, bytes, encoded⟩ := List.exists_cons_of_ne_nil (String.utf8EncodeChar_ne_nil (c := c))
    rw [List.flatMap_cons, encoded]
    exact .nil
  | rel below =>
    rw [List.flatMap_cons, List.flatMap_cons]
    exact utf8EncodeChar_append_lt below _ _
  | cons later ih =>
    rw [List.flatMap_cons, List.flatMap_cons]
    exact List.append_left_lt ih

theorem ofText_lt_of_lt {a b : String} (before : a < b) : ofText a < ofText b := by
  rw [← String.ofList_toList (s := a), ← String.ofList_toList (s := b), ofText_ofList,
    ofText_ofList]
  exact flatMap_utf8EncodeChar_lt before

theorem ofText_lt_iff {a b : String} : ofText a < ofText b ↔ a < b := by
  refine ⟨?_, ofText_lt_of_lt⟩
  intro before
  rcases Ascending.connected a b with ascending | rfl | descending
  · exact ascending
  · exact absurd before (List.lt_irrefl _)
  · exact absurd (ofText_lt_of_lt descending) (List.lt_asymm before)

end Telemetry.Bytes
