import Mathlib.Algebra.Group.Nat.Defs
import Telemetry.Rpc.Message

namespace Telemetry

namespace Binary64

theorem places_lt_signBit : places < signBit := by decide

theorem ofBits_toBits (v : Binary64) : ofBits v.toBits = v := by
  have signed : ∀ negative place, place ≤ places →
      ofBits ((if negative then signBit else 0) + place) = .ofPlace negative place := by
    intro negative place low
    have below := places_lt_signBit
    have small : place < signBit := by omega
    have within : ¬ places < place := Nat.not_lt.2 low
    cases negative with
    | true =>
      have magnitude : (signBit + place) % signBit = place := by
        rw [Nat.add_mod_left, Nat.mod_eq_of_lt small]
      have sign : decide (signBit ≤ signBit + place) = true := decide_eq_true (Nat.le_add_right _ _)
      rw [if_pos rfl, ofBits, magnitude, if_neg within, sign]
    | false =>
      have sign : decide (signBit ≤ place) = false := decide_eq_false (Nat.not_le.2 small)
      rw [if_neg Bool.false_ne_true, Nat.zero_add, ofBits, Nat.mod_eq_of_lt small, if_neg within,
        sign]
  cases v with
  | nan => rfl
  | infinite negative => exact signed negative places (Nat.le_refl _)
  | finite negative place =>
    have low : place.val < places := place.isLt
    rw [toBits, signed negative place.val (Nat.le_of_lt low), ofPlace, dif_pos place.isLt]

theorem toBits_lt (v : Binary64) : v.toBits < 0x10000000000000000 := by
  have below := places_lt_signBit
  have twice : signBit + signBit = 0x10000000000000000 := rfl
  cases v with
  | nan => decide
  | infinite negative =>
    rw [toBits]
    split <;> omega
  | finite negative place =>
    have low : place.val < places := place.isLt
    rw [toBits]
    split <;> omega

end Binary64

theorem Binary64.eq_of_isZero {v : Binary64} (zero : v.isZero = true) :
    v = .zero ∨ v = .negativeZero := by
  cases v with
  | nan => cases zero
  | infinite => cases zero
  | finite negative place =>
    have least : place = ⟨0, by decide⟩ := Fin.ext (beq_iff_eq.1 zero)
    cases negative with
    | false => exact .inl (by rw [least]; rfl)
    | true => exact .inr (by rw [least]; rfl)

theorem Value.carried_of_ne {value : Value} (other : value ≠ .gauge .negativeZero) :
    value.carried = value := by
  cases value with
  | counter delta => rfl
  | gauge reading =>
    cases zero : reading.isZero with
    | false => rw [carried, Binary64.dropZeroSign_of_ne_zero zero]
    | true =>
      rcases Binary64.eq_of_isZero zero with rfl | rfl
      · rfl
      · exact absurd rfl other

theorem Value.isFinite_carried (value : Value) : value.carried.isFinite = value.isFinite := by
  cases value with
  | counter delta => rfl
  | gauge reading =>
    cases zero : reading.isZero with
    | false => rw [carried, Binary64.dropZeroSign_of_ne_zero zero]
    | true => rcases Binary64.eq_of_isZero zero with rfl | rfl <;> rfl

namespace Message

/-! ### Numbers -/

theorem toNat_toUInt8 {n : Nat} (small : n < 256) : n.toUInt8.toNat = n := by
  rw [Nat.toUInt8, UInt8.toNat_ofNat', Nat.mod_eq_of_lt small]

theorem readGroups_groups {more n : Nat} (small : n < 128 ^ (more + 1)) (rest : Bytes) :
    readGroups (more + 1) (groups (more + 1) n ++ rest) = some (n, rest) := by
  induction more generalizing n with
  | zero =>
    have single : n < 128 := by omega
    have last : n.toUInt8.toNat = n := toNat_toUInt8 (by omega)
    have low : n.toUInt8 < 0x80 := by
      rw [UInt8.lt_iff_toNat_lt, last]
      exact single
    rw [groups, if_pos single, List.singleton_append, readGroups, if_pos low, last]
  | succ more ih =>
    rw [groups]
    split
    case isTrue single =>
      have last : n.toUInt8.toNat = n := toNat_toUInt8 (by omega)
      have low : n.toUInt8 < 0x80 := by
        rw [UInt8.lt_iff_toNat_lt, last]
        exact single
      rw [List.singleton_append, readGroups, if_pos low, last]
    case isFalse several =>
      have first : (n % 128 + 128).toUInt8.toNat = n % 128 + 128 := toNat_toUInt8 (by omega)
      have marked : ¬ (n % 128 + 128).toUInt8 < 0x80 := by
        rw [UInt8.lt_iff_toNat_lt, first]
        exact Nat.not_lt.2 (Nat.le_add_left 128 _)
      have fewer : n / 128 < 128 ^ (more + 1) := by
        rw [Nat.div_lt_iff_lt_mul (by decide), ← Nat.pow_succ]
        exact small
      have whole : n % 128 + 128 - 128 + 128 * (n / 128) = n := by omega
      rw [List.cons_append, readGroups, if_neg marked, ih fewer, first]
      simp only [Option.map_some, whole]

theorem readVarint_varint {n : Nat} (small : n < 0x10000000000000000) (rest : Bytes) :
    readVarint (varint n ++ rest) = some (n, rest) := by
  have enough : n < 128 ^ (9 + 1) := Nat.lt_trans small (by decide)
  rw [readVarint, varint, readGroups_groups enough]
  exact Option.filter_some_pos (decide_eq_true small)

theorem length_littleEndian (width n : Nat) : (littleEndian width n).length = width := by
  induction width generalizing n with
  | zero => rfl
  | succ width ih => rw [littleEndian, List.length_cons, ih]

theorem ofLittleEndian_littleEndian {width n : Nat} (small : n < 256 ^ width) :
    ofLittleEndian (littleEndian width n) = n := by
  induction width generalizing n with
  | zero =>
    rw [Nat.pow_zero] at small
    exact (Nat.lt_one_iff.1 small).symm
  | succ width ih =>
    have fewer : n / 256 < 256 ^ width := by
      rw [Nat.div_lt_iff_lt_mul (by decide), ← Nat.pow_succ]
      exact small
    have first : n.toUInt8.toNat = n % 256 := by rw [Nat.toUInt8, UInt8.toNat_ofNat']
    rw [littleEndian, ofLittleEndian, ih fewer, first, Nat.mod_add_div]

theorem takeBytes_append (list rest : Bytes) :
    takeBytes list.length (list ++ rest) = some (list, rest) := by
  rw [takeBytes, if_neg (by simp), List.take_left, List.drop_left]

theorem takeBytes_littleEndian (width n : Nat) (rest : Bytes) :
    takeBytes width (littleEndian width n ++ rest) = some (littleEndian width n, rest) := by
  have taken := takeBytes_append (littleEndian width n) rest
  rwa [length_littleEndian] at taken

/-! ### Fields -/

def Content.Fits : Content → Prop
  | varint n | fixed64 n => n < 0x10000000000000000
  | bytes list => list.length < 0x10000000000000000
  | fixed32 n => n < 0x100000000

structure Fits (field : Field) : Prop where
  positive : 0 < field.1
  small : field.1 < 0x20000000
  content : field.2.Fits

theorem readContent_write {content : Content} (fits : content.Fits) (rest : Bytes) :
    readContent content.form (content.write ++ rest) = some (content, rest) := by
  cases content with
  | varint n =>
    rw [Content.form, Content.write, readContent, readVarint_varint fits]
    rfl
  | fixed64 n =>
    have small : n < 256 ^ 8 := fits
    rw [Content.form, Content.write, readContent, takeBytes_littleEndian]
    simp only [Option.bind_eq_bind, Option.bind_some, ofLittleEndian_littleEndian small]
    rfl
  | bytes list =>
    rw [Content.form, Content.write, List.append_assoc, readContent, readVarint_varint fits]
    simp only [Option.bind_eq_bind, Option.bind_some, takeBytes_append]
    rfl
  | fixed32 n =>
    have small : n < 256 ^ 4 := fits
    rw [Content.form, Content.write, readContent, takeBytes_littleEndian]
    simp only [Option.bind_eq_bind, Option.bind_some, ofLittleEndian_littleEndian small]
    rfl

theorem form_lt (content : Content) : content.form < 8 := by
  cases content <;> simp [Content.form]

theorem readField_writeField {field : Field} (fits : Fits field) (rest : Bytes) :
    readField (writeField field ++ rest) = some (field, rest) := by
  obtain ⟨number, content⟩ := field
  obtain ⟨positive, small, holds⟩ := fits
  have low := form_lt content
  dsimp only at positive small
  have key : number * 8 + content.form < 0x10000000000000000 := by omega
  have parts : (number * 8 + content.form) / 8 = number ∧
    (number * 8 + content.form) % 8 = content.form := by omega
  have valid : ¬ (number = 0 ∨ 0x100000000 ≤ number * 8 + content.form) := by omega
  rw [writeField, List.append_assoc, readField, readVarint_varint key]
  simp only [Option.bind_eq_bind, Option.bind_some, parts, valid, if_false, readContent_write holds]
  rfl

theorem varint_ne_nil (n : Nat) : varint n ≠ [] := by
  unfold varint groups
  split <;> exact List.cons_ne_nil _ _

theorem writeField_ne_nil (field : Field) : writeField field ≠ [] :=
  List.append_ne_nil_of_left_ne_nil (varint_ne_nil _) _

theorem readFields_flatMap {list : List Field} (fits : ∀ field ∈ list, Fits field) {bound : Nat}
    (enough : list.length ≤ bound) : readFields bound (list.flatMap writeField) = some list := by
  induction list generalizing bound with
  | nil => cases bound <;> rfl
  | cons field rest ih =>
    rw [List.forall_mem_cons] at fits
    obtain ⟨bound, rfl⟩ : ∃ less, bound = less + 1 :=
      ⟨bound - 1, by rw [List.length_cons] at enough; omega⟩
    have read := readField_writeField fits.1 (rest.flatMap writeField)
    have later := ih fits.2 (Nat.le_of_succ_le_succ enough)
    rw [List.flatMap_cons, readFields, read]
    · simp only [Option.bind_eq_bind, Option.bind_some, later]
      rfl
    · exact fun empty => writeField_ne_nil field (List.append_eq_nil_iff.1 empty).1

theorem length_le_length_flatMap (list : List Field) :
    list.length ≤ (list.flatMap writeField).length := by
  induction list with
  | nil => exact Nat.le_refl 0
  | cons field rest ih =>
    have some := List.length_pos_iff.2 (writeField_ne_nil field)
    rw [List.flatMap_cons, List.length_cons, List.length_append]
    omega

/-! ### Calls -/

theorem merge_nameField (name : String) (value : Value) :
    (nameField name).foldlM merge ("", value) = some (name, value) := by
  unfold nameField
  by_cases unnamed : name = ""
  · rw [if_pos unnamed, unnamed]
    rfl
  · rw [if_neg unnamed, List.foldlM_cons, merge, Bytes.toText?_ofText]
    rfl

theorem merge_valueField (name : String) (value : Value) :
    (valueField value).foldlM merge (name, default value.kind) = some (name, value.carried) := by
  cases value with
  | gauge reading =>
    cases zero : reading.isZero with
    | true =>
      simp only [valueField, zero, if_true, Value.carried, Binary64.dropZeroSign]
      rfl
    | false =>
      simp only [valueField, zero, Bool.false_eq_true, if_false, List.foldlM_cons, Value.kind,
        default, merge, Binary64.ofBits_toBits, Value.carried, Binary64.dropZeroSign]
      rfl
  | counter delta =>
    by_cases zero : delta = 0
    · rw [valueField, if_pos zero, zero]
      rfl
    · have back : (UInt64.ofNat delta.toUInt64.toNat).toInt64 = delta := by
        rw [UInt64.ofNat_toNat]
        rfl
      simp only [valueField, zero, if_false, List.foldlM_cons, Value.kind, default, merge, back,
        Value.carried]
      rfl

theorem fits_nameField {name : String} (short : (Bytes.ofText name).length < 0x10000000000000000) :
    ∀ field ∈ nameField name, Fits field := by
  unfold nameField
  split
  · exact nofun
  · intro field member
    rw [List.mem_singleton.1 member]
    exact ⟨Nat.succ_pos _, Nat.le_of_ble_eq_true rfl, short⟩

theorem fits_valueField (value : Value) : ∀ field ∈ valueField value, Fits field := by
  cases value with
  | gauge reading =>
    rw [valueField]
    split
    · exact nofun
    · intro field member
      rw [List.mem_singleton.1 member]
      exact ⟨Nat.succ_pos _, Nat.le_of_ble_eq_true rfl, reading.toBits_lt⟩
  | counter delta =>
    rw [valueField]
    split
    · exact nofun
    · intro field member
      rw [List.mem_singleton.1 member]
      exact ⟨Nat.succ_pos _, Nat.le_of_ble_eq_true rfl, delta.toUInt64.toNat_lt⟩

theorem length_groups_le (more n : Nat) : (groups more n).length ≤ more := by
  induction more generalizing n with
  | zero => exact Nat.le_refl 0
  | succ more ih =>
    rw [groups]
    split
    · exact Nat.succ_le_succ (Nat.zero_le more)
    · exact Nat.succ_le_succ (ih _)

theorem length_varint_le (n : Nat) : (varint n).length ≤ 10 := length_groups_le 10 n

theorem length_writeField_le (field : Field) :
    (writeField field).length ≤ field.2.write.length + 10 := by
  have key := length_varint_le (field.1 * 8 + field.2.form)
  rw [writeField, List.length_append]
  omega

theorem length_valueField_le (value : Value) :
    ((valueField value).flatMap writeField).length ≤ 20 := by
  have single : ∀ content : Content, content.write.length ≤ 10 →
      ([(2, content)].flatMap writeField).length ≤ 20 := by
    intro content short
    have field := length_writeField_le (2, content)
    rw [List.flatMap_singleton]
    exact Nat.le_trans field (Nat.add_le_add_right short 10)
  cases value with
  | gauge reading =>
    rw [valueField]
    split
    · exact Nat.zero_le _
    · apply single
      rw [Content.write, length_littleEndian]
      decide
  | counter delta =>
    rw [valueField]
    split
    · exact Nat.zero_le _
    · exact single _ (length_varint_le _)

theorem length_write_le (name : String) (value : Value) :
    (write name value).length ≤ (Bytes.ofText name).length + 40 := by
  have second := length_valueField_le value
  rw [write, nameField, List.flatMap_append, List.length_append]
  split
  · rw [List.flatMap_nil, List.length_nil]
    omega
  · have first := length_writeField_le (1, .bytes (Bytes.ofText name))
    have size := length_varint_le (Bytes.ofText name).length
    rw [Content.write, List.length_append] at first
    rw [List.flatMap_singleton]
    omega

theorem length_name_le (name : String) (value : Value) :
    (Bytes.ofText name).length ≤ (write name value).length := by
  by_cases unnamed : name = ""
  · rw [unnamed]
    exact Nat.zero_le _
  · rw [write, nameField, if_neg unnamed, List.flatMap_append, List.flatMap_singleton, writeField,
      Content.write, List.length_append, List.length_append, List.length_append]
    omega

/-- A message is read as it was written, but for the sign of a zero. -/
theorem read_write {name : String} {value : Value} (within : (write name value).length ≤ limit) :
    read value.kind (write name value) = some (name, value.carried) := by
  have short : (Bytes.ofText name).length < 0x10000000000000000 := by
    have less := Nat.le_trans (length_name_le name value) within
    exact Nat.lt_of_le_of_lt less (by decide)
  have fits : ∀ field ∈ nameField name ++ valueField value, Fits field :=
    List.forall_mem_append.2 ⟨fits_nameField short, fits_valueField value⟩
  rw [read, if_neg (Nat.not_lt.2 within), write,
    readFields_flatMap fits (length_le_length_flatMap _)]
  simp only [Option.bind_eq_bind, Option.bind_some, List.foldlM_append, merge_nameField,
    merge_valueField]

end Message

/-- A call arrives as it was made, but for the sign of a zero. -/
theorem Call.arrived_sent {call : Call} (within : call.sent.message.length ≤ Message.limit) :
    call.sent.arrived = some call.carried := by
  have read :
      Message.read call.sent.procedure call.sent.message = some (call.name, call.value.carried) :=
    Message.read_write within
  rw [Sent.arrived, read]
  rfl

end Telemetry
