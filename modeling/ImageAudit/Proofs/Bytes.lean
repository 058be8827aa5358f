import ImageAudit.Bytes
import Mathlib.Algebra.Group.Nat.Defs
import Mathlib.Data.List.Basic

/-! # Numbers and fields in byte strings

A number that fits its width is read back in either byte order, and as a signed number where it fits
in two's complement. A field is cut out of the place where it was put, and pieces of one size that
were laid one behind the other are told apart again.
-/

namespace ImageAudit.Bytes

section Numbers

theorem natBE_reverse (data : Bytes) : natBE data.reverse = natLE data := by
  rw [natBE, List.foldl_reverse]
  induction data with
  | nil => rfl
  | cons byte rest ih =>
    rw [List.foldr_cons, ih, natLE]
    omega

theorem natBE_ofNatBE {width value : Nat} (fits : value < 256 ^ width) :
    natBE (ofNatBE width value) = value := by
  rw [ofNatBE, natBE_reverse, natLE_ofNatLE width value fits]

/-- What the width has room for is read back. -/
theorem natLE_ofNatLE_mod (width value : Nat) :
    natLE (ofNatLE width value) = value % 256 ^ width := by
  induction width generalizing value with
  | zero => simp [ofNatLE, natLE, Nat.mod_one]
  | succ width ih =>
    have digits : value % (256 * 256 ^ width) = value % 256 + 256 * (value / 256 % 256 ^ width) :=
      Nat.mod_mul
    have low : (UInt8.ofNat value).toNat = value % 256 := UInt8.toNat_ofNat'
    rw [ofNatLE, natLE, ih, low, Nat.pow_succ', digits]

@[simp] theorem length_ofNatIn (order : ByteOrder) (width value : Nat) :
    (ofNatIn order width value).length = width := by
  cases order
  · exact length_ofNatBE ..
  · exact length_ofNatLE ..

theorem natIn_ofNatIn (order : ByteOrder) {width value : Nat} (fits : value < 256 ^ width) :
    natIn order (ofNatIn order width value) = value := by
  cases order
  · exact natBE_ofNatBE fits
  · exact natLE_ofNatLE width value fits

theorem natLE_lt (data : Bytes) : natLE data < 256 ^ data.length := by
  induction data with
  | nil => exact Nat.one_pos
  | cons byte rest ih =>
    have low : byte.toNat < 256 := byte.toNat_lt
    rw [natLE, List.length_cons, Nat.pow_succ']
    omega

/-- As many bytes have room for no larger number. -/
theorem natIn_lt (order : ByteOrder) (data : Bytes) : natIn order data < 256 ^ data.length := by
  cases order
  · have digits := natLE_lt data.reverse
    rwa [← natBE_reverse, List.reverse_reverse, List.length_reverse] at digits
  · exact natLE_lt data

theorem signed_toNat_uint16 (value : UInt16) : signed 2 value.toNat = value.toInt16.toInt := by
  have small : value.toNat < 0x10000 := value.toNat_lt
  have reduced : (value.toNat : Int) % (2 ^ 16 : Nat) = value.toNat := by omega
  have read : value.toInt16.toInt = (value.toNat : Int).bmod (2 ^ 16) :=
    BitVec.toInt_eq_toNat_bmod value.toBitVec
  rw [read, signed, Int.bmod_def, reduced]
  split <;> split <;> omega

theorem signed_toNat_uint32 (value : UInt32) : signed 4 value.toNat = value.toInt32.toInt := by
  have small : value.toNat < 0x100000000 := value.toNat_lt
  have reduced : (value.toNat : Int) % (2 ^ 32 : Nat) = value.toNat := by omega
  have read : value.toInt32.toInt = (value.toNat : Int).bmod (2 ^ 32) :=
    BitVec.toInt_eq_toNat_bmod value.toBitVec
  rw [read, signed, Int.bmod_def, reduced]
  split <;> split <;> omega

end Numbers

section Fields

/-- A field is cut out of the place where it stands. -/
theorem slice_of_prefix {field data : Bytes} {offset length : Nat} (size : field.length = length)
    (stands : field <+: data.drop offset) : slice data offset length = field := by
  rw [slice, ← size, ← List.prefix_iff_eq_take.mp stands]

theorem slice_append_left {before : Bytes} (after : Bytes) {offset length : Nat}
    (inside : offset + length ≤ before.length) :
    slice (before ++ after) offset length = slice before offset length := by
  have first : offset ≤ before.length := by omega
  have room : length ≤ (before.drop offset).length := by
    rw [List.length_drop]
    omega
  rw [slice, slice, List.drop_append_of_le_length first, List.take_append_of_le_length room]

theorem slice_append_right {before : Bytes} (after : Bytes) {offset : Nat} (place length : Nat)
    (behind : offset = before.length + place) :
    slice (before ++ after) offset length = slice after place length := by
  rw [slice, slice, behind, ← List.drop_drop, List.drop_left]

/-- A field of a field. -/
theorem slice_slice (data : Bytes) (start : Nat) {size offset length : Nat}
    (inside : offset + length ≤ size) :
    slice (slice data start size) offset length = slice data (start + offset) length := by
  rw [slice, slice, slice, List.drop_take, List.take_take, List.drop_drop,
    Nat.min_eq_left (by omega)]

/-- What is left from an offset on. -/
theorem slice_rest (data : Bytes) (offset : Nat) :
    slice data offset (data.length - offset) = data.drop offset := by
  rw [slice]
  exact List.take_of_length_le (Nat.le_of_eq List.length_drop)

theorem length_slice {data : Bytes} {offset length : Nat} (inside : offset + length ≤ data.length) :
    (slice data offset length).length = length := by
  rw [slice, List.length_take, List.length_drop]
  omega

theorem slice_self {field : Bytes} {length : Nat} (size : field.length = length) :
    slice field 0 length = field := by
  rw [slice, List.drop_zero, List.take_of_length_le (Nat.le_of_eq size)]

theorem slice_zero {field : Bytes} (rest : Bytes) {length : Nat} (size : field.length = length) :
    slice (field ++ rest) 0 length = field :=
  slice_of_prefix size (List.prefix_append field rest)

theorem getElem?_of_slice {data : Bytes} {offset : Nat} {byte : UInt8}
    (stored : slice data offset 1 = [byte]) : data[offset]? = some byte := by
  have found := congrArg List.head? stored
  rwa [slice, List.head?_take, if_neg Nat.one_ne_zero, List.head?_drop, List.head?_cons] at found

/-- What stands before the first zero byte. -/
theorem untilZero_append {first : Bytes} (noZero : 0 ∉ first) (rest : Bytes) :
    (first ++ 0 :: rest).untilZero = first := by
  have inside : ∀ byte ∈ first, (byte != 0) = true := fun byte member =>
    bne_iff_ne.mpr (ne_of_mem_of_not_mem member noZero)
  rw [untilZero, List.takeWhile_append_of_pos inside, List.takeWhile_cons_of_neg (by decide),
    List.append_nil]

end Fields

section Pieces

variable {α : Type} {encode : α → Bytes}

/-- Where each item takes at least one byte, there are no more items than bytes. -/
theorem length_le_flatMap (items : List α) (long : ∀ item, 0 < (encode item).length) :
    items.length ≤ (items.flatMap encode).length := by
  induction items with
  | nil => exact Nat.zero_le _
  | cons item items ih =>
    have := long item
    rw [List.flatMap_cons, List.length_append, List.length_cons]
    omega

theorem length_flatten_of_sizes {pieces : List Bytes} {size : Nat}
    (sizes : ∀ piece ∈ pieces, piece.length = size) :
    pieces.flatten.length = pieces.length * size := by
  rw [List.length_flatten, List.map_congr_left sizes, List.map_const',
    List.sum_replicate_nat]

end Pieces

section Chunks

variable {size : Nat}

private theorem chunksFrom_append (fuel : Nat) (data : Bytes) (read : Array Bytes) :
    (chunksFrom size fuel data read).toList =
      read.toList ++ (chunksFrom size fuel data #[]).toList := by
  induction fuel generalizing data read with
  | zero => simp [chunksFrom]
  | succ fuel ih =>
    cases data with
    | nil => simp [chunksFrom]
    | cons byte rest =>
      rw [chunksFrom, chunksFrom, ih, ih _ (#[].push _)]
      · simp
      · simp
      · simp

/-- Any fuel from the number of bytes on will do. -/
private theorem chunksFrom_fuel (positive : 0 < size) {fuel other : Nat} {data : Bytes}
    (enough : data.length ≤ fuel) (enough' : data.length ≤ other) :
    chunksFrom size fuel data #[] = chunksFrom size other data #[] := by
  induction fuel generalizing other data with
  | zero =>
    have empty : data = [] := List.eq_nil_of_length_eq_zero (by omega)
    subst empty
    cases other <;> rfl
  | succ fuel ih =>
    cases data with
    | nil => cases other <;> rfl
    | cons byte rest =>
      cases other with
      | zero => simp at enough'
      | succ other =>
        have shorter : ((byte :: rest).drop size).length ≤ rest.length := by
          rw [List.length_drop, List.length_cons]
          omega
        rw [List.length_cons] at enough enough'
        have same : chunksFrom size fuel ((byte :: rest).drop size) #[] =
            chunksFrom size other ((byte :: rest).drop size) #[] := ih (by omega) (by omega)
        rw [chunksFrom, chunksFrom, ← Array.toList_inj, chunksFrom_append, same,
          ← chunksFrom_append]
        · simp
        · simp

@[simp] theorem toList_chunks_nil (size : Nat) : (chunks size []).toList = [] := rfl

/-- The first piece, then the pieces of what is left. -/
theorem toList_chunks (positive : 0 < size) {data : Bytes} (someData : data ≠ []) :
    (chunks size data).toList = data.take size :: (chunks size (data.drop size)).toList := by
  have unit : max size 1 = size := by omega
  obtain ⟨byte, rest, rfl⟩ := List.exists_cons_of_ne_nil someData
  have shorter : ((byte :: rest).drop size).length ≤ rest.length := by
    rw [List.length_drop, List.length_cons]
    omega
  rw [chunks, chunks, unit, List.length_cons, chunksFrom, chunksFrom_append,
    chunksFrom_fuel positive shorter (Nat.le_refl _)]
  · rfl
  · simp

/-- The pieces are the data. -/
theorem flatten_chunks (positive : 0 < size) (data : Bytes) :
    (chunks size data).toList.flatten = data := by
  induction long : data.length using Nat.strongRecOn generalizing data with
  | ind length ih =>
    by_cases empty : data = []
    · rw [empty, toList_chunks_nil, List.flatten_nil]
    · have someBytes : 0 < data.length := List.length_pos_iff.mpr empty
      have shorter : (data.drop size).length < length := by
        rw [List.length_drop]
        omega
      rw [toList_chunks positive empty, List.flatten_cons, ih _ shorter _ rfl,
        List.take_append_drop]

/-- No piece is longer than it is to be. -/
theorem length_le_of_mem_chunks (positive : 0 < size) {data piece : Bytes}
    (member : piece ∈ (chunks size data).toList) : piece.length ≤ size := by
  induction long : data.length using Nat.strongRecOn generalizing data with
  | ind length ih =>
    by_cases empty : data = []
    · rw [empty, toList_chunks_nil] at member
      cases member
    · have someBytes : 0 < data.length := List.length_pos_iff.mpr empty
      have shorter : (data.drop size).length < length := by
        rw [List.length_drop]
        omega
      rw [toList_chunks positive empty, List.mem_cons] at member
      rcases member with rfl | later
      · exact List.length_take_le ..
      · exact ih _ shorter later rfl

/-- A piece is what the data holds at its place. -/
theorem getElem?_chunks (positive : 0 < size) {data : Bytes} {index : Nat}
    (inside : index * size < data.length) :
    (chunks size data)[index]? = some (slice data (index * size) size) := by
  rw [← Array.getElem?_toList]
  induction index generalizing data with
  | zero =>
    rw [Nat.zero_mul] at inside
    rw [toList_chunks positive (List.length_pos_iff.mp inside), List.getElem?_cons_zero,
      Nat.zero_mul, slice, List.drop_zero]
  | succ index ih =>
    rw [Nat.succ_mul] at inside
    have some : data ≠ [] := List.length_pos_iff.mp (by omega)
    have inside' : index * size < (data.drop size).length := by
      rw [List.length_drop]
      omega
    rw [toList_chunks positive some, List.getElem?_cons_succ, ih inside', Nat.succ_mul, slice,
      slice, List.drop_drop, Nat.add_comm]

/-- The pieces of data that divides into them. -/
theorem toList_chunks_of_length (positive : 0 < size) {data : Bytes} {count : Nat}
    (long : data.length = count * size) :
    (chunks size data).toList = (List.range count).map fun index =>
      slice data (index * size) size := by
  induction count generalizing data with
  | zero =>
    rw [Nat.zero_mul] at long
    rw [List.eq_nil_of_length_eq_zero long]
    rfl
  | succ count ih =>
    rw [Nat.succ_mul] at long
    have some : data ≠ [] := List.length_pos_iff.mp (by omega)
    have rest : (data.drop size).length = count * size := by
      rw [List.length_drop]
      omega
    rw [toList_chunks positive some, ih rest, List.range_succ_eq_map, List.map_cons, List.map_map,
      Nat.zero_mul]
    refine congrArg _ (List.map_congr_left fun index _ => ?_)
    rw [Function.comp_apply, Nat.succ_mul, slice, slice, List.drop_drop, Nat.add_comm]

/-- Pieces of one size are told apart again. -/
theorem toList_chunks_flatten (positive : 0 < size) {pieces : List Bytes}
    (sizes : ∀ piece ∈ pieces, piece.length = size) :
    (chunks size pieces.flatten).toList = pieces := by
  induction pieces with
  | nil => rfl
  | cons piece pieces ih =>
    have first : piece.length = size := sizes piece (List.mem_cons_self ..)
    have someData : piece ++ pieces.flatten ≠ [] := by
      intro empty
      rw [(List.append_eq_nil_iff.mp empty).1, List.length_nil] at first
      omega
    rw [List.flatten_cons, toList_chunks positive someData, List.take_left' first,
      List.drop_left' first, ih fun piece member => sizes piece (List.mem_cons_of_mem _ member)]

end Chunks

end ImageAudit.Bytes
