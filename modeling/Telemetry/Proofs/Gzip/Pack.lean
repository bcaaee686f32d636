import Mathlib.Algebra.Group.Nat.Defs
import Telemetry.Gzip.Member
import Telemetry.Proofs.Result

namespace Telemetry.Gzip

/-! ### Little-endian numbers -/

theorem toLittleEndian_succ (width n : Nat) :
    toLittleEndian (width + 1) n = (n % 256).toUInt8 :: toLittleEndian width (n / 256) := by
  have later : ∀ i, n / Nat.pow 256 (i + 1) % 256 = n / 256 / Nat.pow 256 i % 256 := by
    intro i
    rw [Nat.pow_eq, Nat.pow_eq, Nat.pow_succ', Nat.div_div_eq_div_mul]
  rw [toLittleEndian, List.range_succ_eq_map, List.map_cons, List.map_map]
  simp only [Function.comp_def, Nat.succ_eq_add_one, later]
  rw [Nat.pow_eq, Nat.pow_zero, Nat.div_one]
  rfl

theorem length_toLittleEndian (width n : Nat) : (toLittleEndian width n).length = width := by
  rw [toLittleEndian, List.length_map, List.length_range]

theorem littleEndian_toLittleEndian {width n : Nat} (fits : n < 256 ^ width) :
    littleEndian (toLittleEndian width n) = n := by
  induction width generalizing n with
  | zero =>
    rw [Nat.pow_zero] at fits
    have none : n = 0 := by omega
    rw [none]
    rfl
  | succ width ih =>
    have high : n / 256 < 256 ^ width := by
      apply Nat.div_lt_of_lt_mul
      rw [← Nat.pow_succ']
      exact fits
    have low : (n % 256).toUInt8.toNat = n % 256 := by
      rw [Nat.toUInt8, UInt8.toNat_ofNat']
      omega
    rw [toLittleEndian_succ, littleEndian, ih high, low]
    omega

/-! ### Bits -/

namespace Bits

theorem sum_testBit :
    ∀ n < 256, (n.testBit 0).toNat + 2 * ((n.testBit 1).toNat + 2 * ((n.testBit 2).toNat
      + 2 * ((n.testBit 3).toNat + 2 * ((n.testBit 4).toNat + 2 * ((n.testBit 5).toNat
      + 2 * ((n.testBit 6).toNat + 2 * (n.testBit 7).toNat)))))) = n := by
  decide +kernel

theorem number_byte (n : Nat) (b : UInt8) (rest : Bytes) :
    number (n + 8) ⟨[], b :: rest⟩ =
      (number n ⟨[], rest⟩).map fun (high, bits) => (256 * high + b.toNat, bits) := by
  have tail : (bitsOf b).tail = [b.toNat.testBit 1, b.toNat.testBit 2, b.toNat.testBit 3,
      b.toNat.testBit 4, b.toNat.testBit 5, b.toNat.testBit 6, b.toNat.testBit 7] := rfl
  have value := sum_testBit b.toNat b.toNat_lt
  simp only [number, next, tail, ok_bind]
  cases number n ⟨[], rest⟩ with
  | error halt => rfl
  | ok result =>
    obtain ⟨high, bits⟩ := result
    simp only [ok_bind, pure_eq_ok, map_ok, Except.ok.injEq, Prod.mk.injEq, and_true]
    omega

theorem number_two_bytes (a b : UInt8) (rest : Bytes) :
    number 16 ⟨[], a :: b :: rest⟩ = .ok (littleEndian [a, b], ⟨[], rest⟩) := by
  have first := number_byte 8 a (b :: rest)
  have second := number_byte 0 b rest
  rw [Nat.zero_add] at second
  rw [first, second]
  simp only [number, map_ok, littleEndian, Except.ok.injEq, Prod.mk.injEq, and_true]
  omega

theorem number_toLittleEndian {n : Nat} (fits : n < 65536) (rest : Bytes) :
    number 16 ⟨[], toLittleEndian 2 n ++ rest⟩ = .ok (n, ⟨[], rest⟩) := by
  have value := @littleEndian_toLittleEndian 2 n fits
  rw [toLittleEndian_succ, toLittleEndian_succ] at value ⊢
  exact (number_two_bytes _ _ rest).trans (congrArg (fun n => Except.ok (n, _)) value)

end Bits

/-! ### Stored blocks -/

theorem read_of_ok {α : Type} {reader : Bits → Except Halt (α × Bits)} {value : α}
    {bits next : Bits} (read : reader bits = .ok (value, next)) (output : Array UInt8) :
    Progress.read ⟨bits, output⟩ reader = .ok (value, ⟨next, output⟩) := by
  rw [Progress.read, read]

theorem stored_part {part : Bytes} (short : part.length ≤ 65535) (pending : List Bool)
    (rest : Bytes) (output : Array UInt8) :
    stored ⟨⟨pending, toLittleEndian 2 part.length ++ (toLittleEndian 2 (65535 - part.length)
      ++ (part ++ rest))⟩, output⟩ = .ok ⟨⟨[], rest⟩, output ++ part.toArray⟩ := by
  have length : part.length < 65536 := by omega
  have complement : 65535 - part.length < 65536 := by omega
  have sum : part.length + (65535 - part.length) = 0xffff := by omega
  simp only [stored, Bits.align, read_of_ok (Bits.number_toLittleEndian length _),
    read_of_ok (Bits.number_toLittleEndian complement _), ok_bind, sum, List.take_left,
    List.drop_left]
  simp

/-- A block's head: whether it is the last one, and that it is stored. -/
theorem blocks_head (last : Bool) (bound : Nat) (rest : Bytes) (output : Array UInt8) :
    blocks (bound + 1) ⟨⟨[], (if last then 1 else 0) :: rest⟩, output⟩ =
      stored ⟨⟨List.replicate 5 false, rest⟩, output⟩ >>= fun p =>
        if last then .ok p else blocks bound p := by
  cases last <;> rfl

theorem blocks_storedBlocks {count bound : Nat} {input : Bytes}
    (blocksNeeded : input.length < 65535 * count) (enough : count ≤ bound) (rest : Bytes)
    (output : Array UInt8) :
    blocks bound ⟨⟨[], storedBlocks count input ++ rest⟩, output⟩ =
      .ok ⟨⟨[], rest⟩, output ++ input.toArray⟩ := by
  induction count generalizing bound input output with
  | zero => omega
  | succ count ih =>
    obtain _ | bound := bound
    · omega
    have short : (input.take 65535).length ≤ 65535 := List.length_take_le ..
    have whole := List.take_append_drop 65535 input
    have bytes : storedBlocks (count + 1) input ++ rest =
        (if (input.drop 65535).isEmpty then 1 else 0) :: (toLittleEndian 2 (input.take 65535).length
          ++ (toLittleEndian 2 (65535 - (input.take 65535).length) ++ (input.take 65535
            ++ ((if (input.drop 65535).isEmpty then []
              else storedBlocks count (input.drop 65535)) ++ rest)))) := by
      rw [storedBlocks]
      simp only [List.cons_append, List.append_assoc]
    rw [bytes, blocks_head, stored_part short, ok_bind]
    cases ending : (input.drop 65535).isEmpty with
    | true =>
      rw [List.isEmpty_iff.1 ending, List.append_nil] at whole
      rw [whole]
      rfl
    | false =>
      have more : 0 < (input.drop 65535).length :=
        List.length_pos_iff.2 (List.isEmpty_eq_false_iff.1 ending)
      have remaining : (input.drop 65535).length < 65535 * count := by
        rw [List.length_drop] at more ⊢
        omega
      have later :=
        ih remaining (Nat.le_of_succ_le_succ enough) (output ++ (input.take 65535).toArray)
      have joined : output ++ (input.take 65535).toArray ++ (input.drop 65535).toArray =
          output ++ input.toArray := by
        rw [Array.append_assoc, List.append_toArray (input.take 65535), whole]
      rw [joined] at later
      exact later

theorem length_storedBlocks {count : Nat} {input : Bytes}
    (blocksNeeded : input.length < 65535 * count) :
    input.length ≤ (storedBlocks count input).length := by
  induction count generalizing input with
  | zero => exact Nat.le_of_lt (Nat.lt_of_lt_of_le blocksNeeded (Nat.zero_le _))
  | succ count ih =>
    have whole := congrArg List.length (List.take_append_drop 65535 input)
    rw [storedBlocks]
    cases ending : (input.drop 65535).isEmpty with
    | true =>
      rw [List.isEmpty_iff.1 ending, List.append_nil] at whole
      simp only [List.length_cons, List.length_append]
      omega
    | false =>
      have more : 0 < (input.drop 65535).length :=
        List.length_pos_iff.2 (List.isEmpty_eq_false_iff.1 ending)
      have remaining : (input.drop 65535).length < 65535 * count := by
        rw [List.length_drop] at more ⊢
        omega
      have later := ih remaining
      rw [List.length_append] at whole
      simp only [Bool.false_eq_true, if_false, List.length_cons, List.length_append]
      omega

/-! ### Members -/

theorem skipHeader_header (rest : Bytes) : skipHeader (header ++ rest) = some rest := rfl

theorem trailerMatches_trailer (output : Bytes) :
    trailerMatches output (toLittleEndian 4 (checksum output).toNat
      ++ toLittleEndian 4 (output.length % 0x100000000)) = true := by
  have sum : (checksum output).toNat < 256 ^ 4 := (checksum output).toNat_lt
  have size : output.length % 0x100000000 < 256 ^ 4 := Nat.mod_lt _ (by decide)
  have length := length_toLittleEndian 4 (checksum output).toNat
  have length' := length_toLittleEndian 4 (output.length % 0x100000000)
  have all :
      (toLittleEndian 4 (checksum output).toNat ++
        toLittleEndian 4 (output.length % 0x100000000)).take 8 =
      toLittleEndian 4 (checksum output).toNat ++
        toLittleEndian 4 (output.length % 0x100000000) := by
    apply List.take_of_length_le
    simp only [List.length_append, length, length', Nat.reduceAdd, Nat.le_refl]
  rw [trailerMatches]
  simp only [all, List.take_left' length, List.drop_left' length, littleEndian_toLittleEndian sum,
    littleEndian_toLittleEndian size, List.length_append, length, length']
  simp

theorem inflate_storedBlocks (input rest : Bytes) :
    inflate (storedBlocks (input.length / 65535 + 1) input ++ rest) = ⟨input, .ok rest⟩ := by
  have blocksNeeded : input.length < 65535 * (input.length / 65535 + 1) := by omega
  have length := length_storedBlocks blocksNeeded
  have enough : input.length / 65535 + 1 ≤
      8 * (storedBlocks (input.length / 65535 + 1) input ++ rest).length + 1 := by
    rw [List.length_append]
    omega
  rw [inflate, blocks_storedBlocks blocksNeeded enough]
  simp

theorem unpack_pack (input : Bytes) : unpack (pack input) = .ok input := by
  have bytes : pack input = header ++ (storedBlocks (input.length / 65535 + 1) input
      ++ (toLittleEndian 4 (checksum input).toNat ++
        toLittleEndian 4 (input.length % 0x100000000))) := by
    rw [pack, List.append_assoc, List.append_assoc]
  rw [unpack, bytes, skipHeader_header]
  simp only [inflate_storedBlocks, Run.content, trailerMatches_trailer, if_true]

end Telemetry.Gzip
