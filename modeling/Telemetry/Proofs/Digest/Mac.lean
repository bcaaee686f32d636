import Mathlib.Data.List.TakeWhile
import Telemetry.Digest.Mac

namespace Telemetry

namespace Hex

def alphabet : List Char := "0123456789abcdefABCDEF".toList

theorem digit?_ascii : ∀ k < 128, ∀ n < 16,
    digit? (Char.ofNat k) = some n ↔ (Char.ofNat k).toLower = Nat.digitChar n := by
  decide +kernel

theorem range_ascii : ∀ k < 128, ∀ n ∈ digit? (Char.ofNat k),
    n < 16 ∧ Char.ofNat k ∈ alphabet ∧ Text.isBlank (Char.ofNat k) = false := by
  decide +kernel

theorem toNat_digitChar_lt : ∀ n < 16, (Nat.digitChar n).toNat < 128 := by decide

section Digits

variable {c : Char} {n : Nat}

theorem digit?_of_large (large : 128 ≤ c.toNat) : digit? c = none ∧ c.toLower = c := by
  have above : ∀ last : Char, last.toNat < 128 → ¬ c.val ≤ last.val := by
    intro last ascii before
    have : c.toNat ≤ last.toNat := UInt32.le_iff_toNat_le.1 before
    omega
  have numeral : ¬ c.isDigit = true := by
    rw [Char.isDigit_iff_toNat]
    have nine : '9'.toNat = 57 := rfl
    omega
  have lower : ¬ ('a' ≤ c ∧ c ≤ 'f') := fun between => above 'f' (by decide) between.2
  have upper : ¬ ('A' ≤ c ∧ c ≤ 'F') := fun between => above 'F' (by decide) between.2
  constructor
  · rw [digit?, if_neg numeral, if_neg lower, if_neg upper]
  · exact dif_neg fun capital => above 'Z' (by decide) capital.2

theorem toNat_lt_of_digit? (digit : digit? c = some n) : c.toNat < 128 := by
  by_cases large : 128 ≤ c.toNat
  · rw [(digit?_of_large large).1] at digit
    cases digit
  · exact Nat.lt_of_not_le large

theorem range_of_digit? (digit : digit? c = some n) :
    n < 16 ∧ c ∈ alphabet ∧ Text.isBlank c = false := by
  have all := range_ascii c.toNat (toNat_lt_of_digit? digit)
  rw [Char.ofNat_toNat] at all
  exact all n digit

theorem digit?_eq_some_iff (small : n < 16) : digit? c = some n ↔ c.toLower = Nat.digitChar n := by
  by_cases large : 128 ≤ c.toNat
  · obtain ⟨none, same⟩ := digit?_of_large large
    have below := toNat_digitChar_lt n small
    rw [none, same]
    constructor
    · exact nofun
    · intro equal
      rw [← equal] at below
      omega
  · have all := digit?_ascii c.toNat (Nat.lt_of_not_le large) n small
    rwa [Char.ofNat_toNat] at all

end Digits

/-- Two digits make a byte, which is written with these two. -/
theorem ofDigits_eq_iff {high low : Nat} (smallHigh : high < 16) (smallLow : low < 16) (b : UInt8) :
    ofDigits high low = b ↔ high = b.toNat / 16 ∧ low = b.toNat % 16 := by
  have value : (ofDigits high low).toNat = high * 16 + low := by
    rw [ofDigits, Nat.toUInt8, UInt8.toNat_ofNat']
    omega
  rw [← UInt8.toNat_inj, value]
  omega

theorem encode_cons (b : UInt8) (bytes : Bytes) :
    encode (b :: bytes) = Nat.digitChar (b.toNat / 16) :: Nat.digitChar (b.toNat % 16) :: encode
      bytes := rfl

theorem decode_eq_some_iff {text : List Char} {bytes : Bytes} :
    decode text = some bytes ↔ text.map Char.toLower = encode bytes := by
  fun_induction decode text generalizing bytes with
  | case1 =>
    cases bytes with
    | nil => simp [encode]
    | cons b rest => simp [encode_cons]
  | case2 high low rest ih =>
    cases bytes with
    | nil => simp [encode, Option.bind_eq_some_iff]
    | cons b others =>
      have small := b.toNat_lt
      have highIff := @digit?_eq_some_iff high (b.toNat / 16) (by omega)
      have lowIff := @digit?_eq_some_iff low (b.toNat % 16) (by omega)
      simp only [List.map_cons, encode_cons, List.cons.injEq, ← highIff, ← lowIff, ← ih]
      constructor
      · intro read
        simp only [Option.bind_eq_bind, Option.pure_def, Option.bind_eq_some_iff, Option.some.injEq,
          List.cons.injEq] at read
        obtain ⟨h, isHigh, l, isLow, tail, isTail, byte, rfl⟩ := read
        obtain ⟨rfl, rfl⟩ :=
          (ofDigits_eq_iff (range_of_digit? isHigh).1 (range_of_digit? isLow).1 b).1 byte
        exact ⟨isHigh, isLow, isTail⟩
      · rintro ⟨isHigh, isLow, isTail⟩
        have byte := (ofDigits_eq_iff (by omega) (by omega) b).2 ⟨rfl, rfl⟩
        simp [isHigh, isLow, isTail, byte]
  | case3 c =>
    cases bytes with
    | nil => simp [encode]
    | cons b rest => simp [encode_cons]

theorem digit?_isSome_of_mem {text : List Char} {bytes : Bytes} (read : decode text = some bytes)
    {c : Char} (member : c ∈ text) : ∃ n, digit? c = some n := by
  fun_induction decode text generalizing bytes with
  | case1 => cases member
  | case2 high low rest ih =>
    simp only [Option.bind_eq_bind, Option.pure_def, Option.bind_eq_some_iff,
      Option.some.injEq] at read
    obtain ⟨h, isHigh, l, isLow, tail, isTail, -⟩ := read
    simp only [List.mem_cons] at member
    rcases member with rfl | rfl | member
    · exact ⟨h, isHigh⟩
    · exact ⟨l, isLow⟩
    · exact ih isTail member
  | case3 => cases read

end Hex

namespace Text

variable {front middle back text : List Char}

theorem dropWhile_isBlank_of_solid (solid : ∀ c ∈ middle, isBlank c = false)
    (blank : ∀ c ∈ back, isBlank c = true) :
    (middle ++ back).dropWhile isBlank = if middle = [] then [] else middle ++ back := by
  cases middle with
  | nil => exact List.dropWhile_eq_nil_iff.2 blank
  | cons c rest =>
    have first := solid c (List.mem_cons_self ..)
    rw [List.cons_append, List.dropWhile_cons_of_neg (by simp [first])]
    rfl

theorem trim_around (blankFront : ∀ c ∈ front, isBlank c = true)
    (solid : ∀ c ∈ middle, isBlank c = false) (blankBack : ∀ c ∈ back, isBlank c = true) :
    trim (front ++ middle ++ back) = middle := by
  rw [trim, List.append_assoc, List.dropWhile_append_of_pos blankFront,
    dropWhile_isBlank_of_solid solid blankBack]
  by_cases empty : middle = []
  · rw [if_pos empty, empty]
    rfl
  · have solidBack : ∀ c ∈ middle.reverse, isBlank c = false := by
      intro c member
      exact solid c (List.mem_reverse.1 member)
    have blanks : ∀ c ∈ back.reverse, isBlank c = true := by
      intro c member
      exact blankBack c (List.mem_reverse.1 member)
    have nothing : ∀ c ∈ ([] : List Char), isBlank c = true := nofun
    have kept := dropWhile_isBlank_of_solid solidBack nothing
    rw [List.append_nil, if_neg (by simpa using empty)] at kept
    rw [if_neg empty, trimEnd, List.reverse_append, List.dropWhile_append_of_pos blanks, kept,
      List.reverse_reverse]

theorem exists_around (text : List Char) :
    ∃ front back, text = front ++ trim text ++ back ∧ ∀ c ∈ front ++ back, isBlank c = true := by
  refine ⟨text.takeWhile isBlank, ((text.dropWhile isBlank).reverse.takeWhile isBlank).reverse, ?_,
    ?_⟩
  · have ends : trim text ++ ((text.dropWhile isBlank).reverse.takeWhile isBlank).reverse =
        text.dropWhile isBlank := by
      rw [trim, trimEnd, ← List.reverse_append, List.takeWhile_append_dropWhile,
        List.reverse_reverse]
    rw [List.append_assoc, ends, List.takeWhile_append_dropWhile]
  · intro c member
    rcases List.mem_append.1 member with atFront | atBack
    · exact List.mem_takeWhile_imp atFront
    · exact List.mem_takeWhile_imp (List.mem_reverse.1 atBack)

end Text

namespace Mac

/-- A text as it is compared with a tag: without the blanks at its ends, and in lower case. -/
def plainForm (text : String) : String := String.ofList ((Text.trim text.toList).map Char.toLower)

/-- The text is that of a tag in any letter case, with blanks in front of it and behind it. -/
def Spells (text tag : String) : Prop :=
  ∃ front middle back : List Char, text.toList = front ++ middle ++ back ∧
    (∀ c ∈ front ++ back, Text.isBlank c = true) ∧ middle.map Char.toLower = tag.toList

variable {message key : Bytes} {text other : String}

theorem verify_eq_true_iff :
    verify message text key = true ↔
      Hex.decode (Text.trim text.toList) = some (digest message key) := by
  rw [verify, beq_iff_eq]

theorem verify_iff_plainForm :
    verify message text key = true ↔ plainForm text = sign message key := by
  rw [verify_eq_true_iff, Hex.decode_eq_some_iff, plainForm, sign, String.ofList_inj]

theorem verify_iff_spells : verify message text key = true ↔ Spells text (sign message key) := by
  rw [verify_eq_true_iff, Spells]
  constructor
  · intro read
    obtain ⟨front, back, around, blank⟩ := Text.exists_around text.toList
    refine ⟨front, _, back, around, blank, ?_⟩
    rw [sign, String.toList_ofList]
    exact Hex.decode_eq_some_iff.1 read
  · rintro ⟨front, middle, back, around, blank, spelled⟩
    rw [sign, String.toList_ofList] at spelled
    have read := Hex.decode_eq_some_iff.2 spelled
    have solid : ∀ c ∈ middle, Text.isBlank c = false := by
      intro c member
      obtain ⟨n, digit⟩ := Hex.digit?_isSome_of_mem read member
      exact (Hex.range_of_digit? digit).2.2
    rw [List.forall_mem_append] at blank
    rw [around, Text.trim_around blank.1 solid blank.2, read]

theorem verify_congr (same : plainForm text = plainForm other) (message key : Bytes) :
    verify message text key = verify message other key := by
  rw [Bool.eq_iff_iff, verify_iff_plainForm, verify_iff_plainForm, same]

theorem verify_encode_iff (message key bytes : Bytes) :
    verify message (String.ofList (Hex.encode bytes)) key = true ↔ bytes = digest message key := by
  rw [verify_eq_true_iff, String.toList_ofList,
    Text.trim_of_no_blank (fun _ => isBlank_of_mem_encode), Hex.decode_encode, Option.some.injEq]

theorem length_sign (message key : Bytes) : (sign message key).toList.length = 64 := by
  rw [sign, String.toList_ofList, Hex.length_encode, length_digest]

/-- What may be wrong with a text, the blanks around it aside: it is too short or too long,
something in it is no digit, or it stands for other bytes, be it by a single bit. -/
inductive Spoilt (message key : Bytes) (text : List Char) : Prop
  | truncated {rest : List Char} (missing : rest ≠ [])
      (front : text.map Char.toLower ++ rest = (sign message key).toList)
  | extended {rest : List Char} (more : rest ≠ [])
      (longer : text.map Char.toLower = (sign message key).toList ++ rest)
  | odd (length : text.length % 2 = 1)
  | notHex {c : Char} (member : c ∈ text) (other : c ∉ Hex.alphabet)
  | flipped {bytes : Bytes} {place bit : Nat} (read : Hex.decode text = some bytes)
      (differs : (bytes.getD place 0).toNat.testBit bit ≠
        ((digest message key).getD place 0).toNat.testBit bit)

theorem length_of_verify (verified : verify message text key = true) :
    (Text.trim text.toList).length = 64 := by
  rw [verify_eq_true_iff, Hex.decode_eq_some_iff] at verified
  calc (Text.trim text.toList).length =
    ((Text.trim text.toList).map Char.toLower).length := by rw [List.length_map]
    _ = 2 * (digest message key).length := by rw [verified, Hex.length_encode]
    _ = 64 := by rw [length_digest]

theorem verify_of_spoilt (spoilt : Spoilt message key (Text.trim text.toList)) :
    verify message text key = false := by
  rw [Bool.eq_false_iff]
  intro verified
  have length := length_of_verify verified
  cases spoilt with
  | @truncated rest missing front =>
    have total := congrArg List.length front
    rw [List.length_append, List.length_map, length, length_sign] at total
    have some := List.length_pos_iff.2 missing
    omega
  | @extended rest more longer =>
    have total := congrArg List.length longer
    rw [List.length_append, List.length_map, length, length_sign] at total
    have some := List.length_pos_iff.2 more
    omega
  | odd length' => omega
  | notHex member other =>
    obtain ⟨n, digit⟩ := Hex.digit?_isSome_of_mem (verify_eq_true_iff.1 verified) member
    exact other (Hex.range_of_digit? digit).2.1
  | flipped read differs =>
    cases read.symm.trans (verify_eq_true_iff.1 verified)
    exact differs rfl

end Mac
end Telemetry
