import Telemetry.Http.Message

namespace Telemetry

namespace Bytes

theorem ofText_ofList (text : List Char) :
    ofText (String.ofList text) = text.flatMap String.utf8EncodeChar := by
  rw [ofText, String.toUTF8, String.toByteArray_ofList, List.utf8Encode]
  exact List.toList_data_toByteArray

theorem utf8EncodeChar_ascii {c : Char} (ascii : c.toNat < 0x80) :
    String.utf8EncodeChar c = [c.toNat.toUInt8] :=
  if_pos (Nat.le_of_lt_succ ascii)

theorem ofText_ascii {text : List Char} (ascii : ∀ c ∈ text, c.toNat < 0x80) :
    ofText (String.ofList text) = ofAscii text := by
  rw [ofText_ofList, ofAscii]
  induction text with
  | nil => rfl
  | cons c rest ih =>
    rw [List.forall_mem_cons] at ascii
    rw [List.flatMap_cons, utf8EncodeChar_ascii ascii.1, ih ascii.2]
    rfl

end Bytes

namespace Text

theorem ofHeader_ofText {text : List Char} (visible : ∀ c ∈ text, 0x20 ≤ c.toNat ∧ c.toNat < 0x7f) :
    ofHeader (Bytes.ofText (String.ofList text)) = some (String.ofList text) := by
  have byte : ∀ c ∈ text, c.toNat.toUInt8.toNat = c.toNat := by
    intro c member
    have small := (visible c member).2
    rw [Nat.toUInt8, UInt8.toNat_ofNat']
    omega
  have allowed : (Bytes.ofAscii text).all
      (fun b => (0x20 ≤ b && b < 0x7f) || b == 0x09) = true := by
    rw [Bytes.ofAscii, List.all_map, List.all_eq_true]
    intro c member
    have low : (0x20 : UInt8) ≤ c.toNat.toUInt8 := by
      rw [UInt8.le_iff_toNat_le, byte c member]
      exact (visible c member).1
    have high : c.toNat.toUInt8 < (0x7f : UInt8) := by
      rw [UInt8.lt_iff_toNat_lt, byte c member]
      exact (visible c member).2
    simp only [Function.comp_apply, low, high, decide_true, Bool.and_self, Bool.true_or]
  have back : (Bytes.ofAscii text).map (fun b => Char.ofNat b.toNat) = text := by
    have each : ∀ c ∈ text, Char.ofNat c.toNat.toUInt8.toNat = id c := by
      intro c member
      rw [byte c member]
      exact Char.ofNat_toNat c
    rw [Bytes.ofAscii, List.map_map]
    exact (List.map_congr_left each).trans (List.map_id text)
  rw [Bytes.ofText_ascii, ofHeader, if_pos allowed, back]
  intro c member
  exact Nat.lt_succ_of_lt (visible c member).2

end Text

namespace Request

theorem path_eq {request : Request} {path rest : List Char}
    (target : request.target.toList = '/' :: path ++ rest)
    (inside : ∀ c ∈ path, (c != '?' && c != '#') = true)
    (stops : rest.takeWhile (fun c => c != '?' && c != '#') = []) :
    request.path = String.ofList ('/' :: path) := by
  have front : request.target.toList.takeWhile (fun c => c != '?' && c != '#') = '/' :: path := by
    rw [target, List.takeWhile_append_of_pos, stops, List.append_nil]
    rw [List.forall_mem_cons]
    exact ⟨rfl, inside⟩
  rw [Request.path]
  simp only [front, List.head?_cons, if_true]

end Request
end Telemetry
