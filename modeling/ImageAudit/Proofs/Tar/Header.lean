import ImageAudit.Proofs.Bytes
import ImageAudit.Proofs.Text.Utf8
import ImageAudit.Tar.Writer
import Mathlib.Tactic.Ring

/-! # A written header is read back

A number that is written in octal digits is read as its low digits, and a length as what it was
where 64 bits hold it. A header that was written from fields of the right lengths is intact, of the
dialect with long names, and no block of zeros; what is read out of it is what was put in.
-/

namespace ImageAudit

theorem Utf8.strict?_ascii {data : Bytes} (ascii : ∀ byte ∈ data, byte < 0x80) :
    strict? data = some (String.ofList (data.map fun byte => Char.ofNat byte.toNat)) := by
  have read : isValid data = true ∧
      decodeFrom replacement [] data = data.map fun byte => Char.ofNat byte.toNat := by
    induction data with
    | nil => exact ⟨by rw [isValid], decodeFrom_nil _⟩
    | cons byte data ih =>
      obtain ⟨small, ascii⟩ := List.forall_mem_cons.mp ascii
      obtain ⟨valid, decoded⟩ := ih ascii
      rw [isValid, decodeFrom_cons, next_ascii _ small, valid, decoded]
      exact ⟨rfl, rfl⟩
  rw [strict?, if_pos read.1, lossy, read.2]

namespace Tar

open Writer

section Octal

private def digitChars (digits value : Nat) : List Char :=
  (List.range digits).reverse.map fun place => Char.ofNat (48 + value / 8 ^ place % 8)

private theorem digitChars_succ (digits value : Nat) :
    digitChars (digits + 1) value =
      Char.ofNat (48 + value / 8 ^ digits % 8) :: digitChars digits value := by
  rw [digitChars, List.range_succ, List.reverse_append]
  rfl

private theorem of_mem_digitChars {digits value : Nat} {c : Char}
    (member : c ∈ digitChars digits value) :
    Text.isBlank c = false ∧ ¬ (c < '0' ∨ '7' < c) ∧ c ≠ '+' := by
  obtain ⟨place, -, rfl⟩ := List.mem_map.mp member
  have all : ∀ digit < 8, Text.isBlank (Char.ofNat (48 + digit)) = false ∧
      ¬ (Char.ofNat (48 + digit) < '0' ∨ '7' < Char.ofNat (48 + digit)) ∧
      Char.ofNat (48 + digit) ≠ '+' := by decide +kernel
  exact all _ (Nat.mod_lt _ (by decide))

private theorem foldl_digitChars (digits value start : Nat) :
    (digitChars digits value).foldl (fun value c => value * 8 + (c.toNat - 48)) start =
      start * 8 ^ digits + value % 8 ^ digits := by
  induction digits generalizing start with
  | zero => simp [digitChars, Nat.mod_one]
  | succ digits ih =>
    have all : ∀ digit < 8, (Char.ofNat (48 + digit)).toNat - 48 = digit := by decide +kernel
    rw [digitChars_succ, List.foldl_cons, ih, all _ (Nat.mod_lt _ (by decide)), Nat.mod_pow_succ,
      Nat.pow_succ]
    ring

private theorem trim_digitChars (digits value : Nat) :
    Text.trim (String.ofList (digitChars digits value)) =
      String.ofList (digitChars digits value) := by
  have kept {chars : List Char} (visible : ∀ c ∈ chars, Text.isBlank c = false) :
      chars.dropWhile Text.isBlank = chars := by
    cases chars with
    | nil => rfl
    | cons c chars =>
      rw [List.dropWhile_cons_of_neg (by rw [visible c (List.mem_cons_self ..)]; exact nofun)]
  have visible : ∀ c ∈ digitChars digits value, Text.isBlank c = false :=
    fun c member => (of_mem_digitChars member).1
  rw [Text.trim, String.toList_ofList, kept visible,
    kept fun c member => visible c (List.mem_reverse.mp member), List.reverse_reverse]

private theorem octalOfText?_digitChars {digits : Nat} (some : 0 < digits) (few : digits ≤ 21)
    (value : Nat) :
    octalOfText? (String.ofList (digitChars digits value)) = .some (value % 8 ^ digits) := by
  have proper (c : Char) (member : c ∈ digitChars digits value) := of_mem_digitChars member
  have notEmpty : digitChars digits value ≠ [] := by
    rw [digitChars, ne_eq, List.map_eq_nil_iff, List.reverse_eq_nil_iff, List.range_eq_nil]
    omega
  have noSign : (digitChars digits value).head? ≠ .some '+' :=
    fun plus => (proper _ (List.mem_of_mem_head? plus)).2.2 rfl
  have octalDigits : (digitChars digits value).any (fun c => c < '0' || '7' < c) = false := by
    rw [List.any_eq_false]
    intro c member
    simpa using (proper c member).2.1
  have fits : value % 8 ^ digits < 0x10000000000000000 := by
    have power : 8 ^ digits ≤ 8 ^ 21 := Nat.pow_le_pow_right (by decide) few
    have small := Nat.mod_lt value (Nat.pow_pos (n := digits) (by decide : 0 < 8))
    omega
  have valued := foldl_digitChars digits value 0
  rw [Nat.zero_mul, Nat.zero_add] at valued
  simp only [octalOfText?, trim_digitChars, String.toList_ofList, if_neg noSign, octalDigits,
    notEmpty, Bool.false_eq_true, or_self, if_false, valued, if_pos fits]

private theorem toNat_digit (value place : Nat) :
    (UInt8.ofNat (48 + (value >>> (3 * place)) % 8)).toNat = 48 + value / 8 ^ place % 8 := by
  have small : value / 8 ^ place % 8 < 8 := Nat.mod_lt _ (by decide)
  have power : 2 ^ (3 * place) = 8 ^ place := Nat.pow_mul 2 3 place
  rw [Nat.shiftRight_eq_div_pow, power, UInt8.toNat_ofNat', Nat.mod_eq_of_lt (by omega)]

/-- The bytes of octal digits are those characters. -/
private theorem untilZero_octal (digits value : Nat) :
    (∀ byte ∈ (octal digits value).untilZero, byte < 0x80) ∧
      (octal digits value).untilZero.map (fun byte => Char.ofNat byte.toNat) =
        digitChars digits value := by
  have small (place : Nat) : value / 8 ^ place % 8 < 8 := Nat.mod_lt _ (by decide)
  have written : (octal digits value).untilZero = (List.range digits).reverse.map fun place =>
      UInt8.ofNat (48 + (value >>> (3 * place)) % 8) := by
    rw [Bytes.untilZero, octal, List.takeWhile_append_of_pos]
    · exact List.append_nil _
    · intro byte member
      obtain ⟨place, -, rfl⟩ := List.mem_map.mp member
      rw [bne_iff_ne, ne_eq, ← UInt8.toNat_inj, toNat_digit]
      exact Nat.ne_of_gt (Nat.add_pos_left (by decide) _)
  rw [written]
  constructor
  · intro byte member
    obtain ⟨place, -, rfl⟩ := List.mem_map.mp member
    rw [UInt8.lt_iff_toNat_lt, toNat_digit]
    exact Nat.lt_trans (Nat.add_lt_add_left (small place) 48) (by decide)
  · rw [List.map_map, digitChars]
    exact List.map_congr_left fun place _ => congrArg Char.ofNat (toNat_digit value place)

/-- The low digits of a number are read back. -/
theorem octal?_octal {digits : Nat} (some : 0 < digits) (few : digits ≤ 21) (value : Nat) :
    octal? (octal digits value) = .some (value % 8 ^ digits) := by
  obtain ⟨ascii, chars⟩ := untilZero_octal digits value
  rw [octal?, Utf8.strict?_ascii ascii, Option.bind_some, chars, octalOfText?_digitChars some few]

theorem length_octal (digits value : Nat) : (octal digits value).length = digits + 1 := by
  simp [octal]

theorem length_sizeField (size : Nat) : (sizeField size).length = 12 := by
  unfold sizeField
  split
  · exact length_octal 11 size
  · rw [List.length_append, Bytes.length_ofNatBE]
    rfl

/-- A length is read back where 64 bits hold it. -/
theorem number?_sizeField {size : Nat} (fits : size < 2 ^ 64) :
    number? (sizeField size) = some size := by
  unfold sizeField
  split
  · rename_i small
    have short : size < 8 ^ 11 := small
    have first : ((octal 11 size).getD 0 0).toNat < 128 := by
      change (UInt8.ofNat (48 + (size >>> (3 * 10)) % 8)).toNat < 128
      rw [toNat_digit]
      omega
    rw [number?, if_pos first, octal?_octal (by decide) (by decide), Nat.mod_eq_of_lt short]
  · have first : ¬ (([0x80, 0, 0, 0] ++ Bytes.ofNatBE 8 size).getD 0 0).toNat < 128 :=
      Nat.lt_irrefl 128
    rw [number?, if_neg first]
    exact congrArg some (Bytes.natBE_ofNatBE fits)

end Octal

namespace Writer

theorem length_textField {length : Nat} {text : Bytes} (fits : text.length ≤ length) :
    (textField length text).length = length := by
  rw [textField, Bytes.zeros, List.length_append, List.length_replicate]
  omega

/-- The zeros that fill a text field end what is read of it. -/
theorem untilZero_textField (length : Nat) (text : Bytes) :
    (textField length text).untilZero = text.untilZero := by
  have zeros (count : Nat) : (Bytes.zeros count).untilZero = [] := by
    cases count <;> rfl
  unfold textField Bytes.untilZero
  rw [List.takeWhile_append]
  split <;> rename_i whole
  · change text ++ (Bytes.zeros _).untilZero = _
    rw [zeros, List.append_nil, List.IsPrefix.eq_of_length (List.takeWhile_prefix _) whole]
  · rfl

namespace HeaderFields

/-- Fields that have the room that they are given. -/
structure Fits (fields : HeaderFields) : Prop where
  name : fields.name.length ≤ fieldSize
  link : fields.link.length ≤ fieldSize
  size : fields.size < 2 ^ 64

namespace Fits

variable {fields : HeaderFields} (fits : fields.Fits)
include fits

theorem length_name : (textField 100 fields.name).length = 100 := length_textField fits.name

theorem length_link : (textField 100 fields.link).length = 100 := length_textField fits.link

theorem length_before : fields.before.length = 148 := by
  simp only [before, List.length_append, length_octal, length_sizeField, length_name fits]

theorem length_after : fields.after.length = 356 := by
  refine length_textField ?_
  simp only [List.length_append, List.length_cons, List.length_nil, length_link fits, blockSize]
  decide

theorem length_block : fields.block.length = blockSize := by
  simp only [block, List.length_append, length_octal, length_before fits, length_after fits,
    blockSize]

private theorem field_before {offset length : Nat} (inside : offset + length ≤ 148) :
    (Header.mk fields.block).field offset length =
      Bytes.slice (textField 100 fields.name ++ (octal 7 fields.mode.toNat ++ (octal 7 0 ++
        (octal 7 0 ++ (sizeField fields.size ++ octal 11 0))))) offset length := by
  have written : fields.before = textField 100 fields.name ++ (octal 7 fields.mode.toNat ++
      (octal 7 0 ++ (octal 7 0 ++ (sizeField fields.size ++ octal 11 0)))) := by
    simp only [before, List.append_assoc]
  rw [Header.field, block, List.append_assoc, Bytes.slice_append_left, written]
  rwa [length_before fits]

theorem field_name : (Header.mk fields.block).field 0 100 = textField 100 fields.name := by
  rw [field_before fits (by decide), Bytes.slice_zero _ (length_name fits)]

theorem field_mode : (Header.mk fields.block).field 100 8 = octal 7 fields.mode.toNat := by
  have full : 100 = (textField 100 fields.name).length + 0 := (length_name fits).symm
  rw [field_before fits (by decide), Bytes.slice_append_right _ 0 8 full,
    Bytes.slice_zero _ (length_octal ..)]

theorem field_size : (Header.mk fields.block).field 124 12 = sizeField fields.size := by
  have named : 124 = (textField 100 fields.name).length + 24 := by
    rw [length_name fits]
  have next (value place : Nat) : 8 + place = (octal 7 value).length + place := by
    rw [length_octal]
  rw [field_before fits (by decide), Bytes.slice_append_right _ 24 12 named,
    Bytes.slice_append_right _ 16 12 (next ..), Bytes.slice_append_right _ 8 12 (next ..),
    Bytes.slice_append_right _ 0 12 (next ..), Bytes.slice_zero _ (length_sizeField ..)]

theorem field_checksum : (Header.mk fields.block).field 148 8 = octal 7 fields.sum := by
  rw [Header.field, block, List.append_assoc,
    Bytes.slice_append_right _ 0 8 (length_before fits).symm, Bytes.slice_zero _ (length_octal ..)]

private theorem drop_block : fields.block.drop 156 = fields.after := by
  rw [block, List.drop_left']
  rw [List.length_append, length_before fits, length_octal]

theorem field_magic : (Header.mk fields.block).field 257 8 =
    [0x75, 0x73, 0x74, 0x61, 0x72, 0x20, 0x20, 0] := by
  have behind : fields.block.drop 257 = (fields.after.drop 1).drop 100 := by
    rw [← drop_block fits, List.drop_drop, List.drop_drop]
  rw [Header.field, Bytes.slice, behind, after, textField, List.cons_append, List.cons_append,
    List.drop_one, List.tail_cons, List.append_assoc, List.drop_left' (length_link fits)]
  rfl

theorem kind_block : (Header.mk fields.block).kind = EntryKind.ofByte fields.kind := by
  have first : fields.block[156]? = some fields.kind := by
    rw [← List.head?_drop, drop_block fits]
    rfl
  rw [Header.kind, List.getD_eq_getElem?_getD, first, Option.getD_some]

theorem isGnu_block : (Header.mk fields.block).isGnu = true := by
  rw [Header.isGnu, field_magic fits]
  rfl

theorem isUstar_block : (Header.mk fields.block).isUstar = false := by
  rw [Header.isUstar, field_magic fits]
  rfl

/-- The header is no block of zeros. -/
theorem block_not_zeros : fields.block.all (· == 0) = false := by
  rw [Bool.eq_false_iff]
  intro zeros
  have magic := field_magic fits
  have member : 0x75 ∈ fields.block := by
    refine List.mem_of_mem_drop (i := 257) (List.mem_of_mem_take (i := 8) ?_)
    rw [← Bytes.slice, ← Header.field, magic]
    exact List.mem_cons_self ..
  exact absurd (List.all_eq_true.mp zeros _ member) (by decide)

omit fits in
private theorem foldl_toNat_le (data : Bytes) (start : Nat) :
    data.foldl (· + ·.toNat) start ≤ start + 255 * data.length := by
  induction data generalizing start with
  | nil => exact Nat.le_refl _
  | cons byte data ih =>
    have small := byte.toNat_lt
    have rest := ih (start + byte.toNat)
    rw [List.foldl_cons, List.length_cons]
    omega

theorem sum_lt : fields.sum < 8 ^ 7 := by
  have bound := foldl_toNat_le (fields.before ++ fields.after) (8 * 32)
  rw [List.length_append, length_before fits, length_after fits] at bound
  rw [sum]
  omega

theorem isIntact_block : (Header.mk fields.block).isIntact = true := by
  have small := sum_lt fits
  have start : fields.block.take 148 = fields.before := by
    rw [block, List.append_assoc, List.take_left' (length_before fits)]
  have summed : (Header.mk fields.block).sum = fields.sum := by
    rw [Header.sum, Header.checksumOffset, start, drop_block fits, sum]
  rw [Header.isIntact, Header.checksumOffset, field_checksum fits,
    octal?_octal (by decide) (by decide), Nat.mod_eq_of_lt small, summed]
  simp only [beq_iff_eq]
  exact Nat.mod_eq_of_lt (Nat.lt_trans small (by decide))

theorem size?_block : (Header.mk fields.block).size? = some fields.size := by
  rw [Header.size?, field_size fits, number?_sizeField fits.size]

/-- Of the mode the digits that fit are read back. -/
theorem mode?_block : (Header.mk fields.block).mode? =
    some (UInt32.ofNat (fields.mode.toNat % 8 ^ 7)) := by
  rw [Header.mode?, field_mode fits, octal?_octal (by decide) (by decide), Option.map_some]

/-- What is read as the name is what stands before the first zero byte. -/
theorem path_block : (Header.mk fields.block).path = fields.name.untilZero := by
  rw [Header.path, isUstar_block fits, field_name fits, Bool.false_and, if_neg Bool.false_ne_true,
    untilZero_textField]

end Fits

end HeaderFields

end Writer

end Tar

end ImageAudit
