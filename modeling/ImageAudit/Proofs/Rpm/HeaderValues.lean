import ImageAudit.Proofs.Rpm.HeaderInRange
import ImageAudit.Proofs.Rpm.HeaderStrings
import Mathlib

/-! # What is read under a tag

The strings of an entry are the pieces of the data store, from the place of the entry on, that a
zero byte ends; its numbers are fields of one width, one behind the other. There are as many strings
to be read as zero bytes, and as many numbers as have room. What is there is read, what is not there
is reported as a bad entry, and so is a tag whose values are of another kind. That there cannot be
more strings than bytes is asked first, and turns away no entry that could be read.
-/

namespace ImageAudit.Rpm

open Bytes (slice)

/-- The pieces of the data that a zero byte ends. -/
def zeroEnded (data : Bytes) : List Bytes := (data.splitOn 0).dropLast

section ZeroEnded

variable {data first rest : Bytes}

theorem zeroEnded_append (noZero : 0 ∉ first) :
    zeroEnded (first ++ 0 :: rest) = first :: zeroEnded rest := by
  rw [zeroEnded, List.splitOn_append_cons_self, List.splitOn_eq_singleton noZero,
    List.singleton_append, List.dropLast_cons_of_ne_nil (List.splitOn_ne_nil 0 rest), zeroEnded]

theorem count_append_zero (noZero : 0 ∉ first) :
    (first ++ 0 :: rest).count 0 = rest.count 0 + 1 := by
  rw [List.count_append, List.count_eq_zero_of_not_mem noZero, List.count_cons_self, Nat.zero_add]

theorem head?_zeroEnded (zero : 0 ∈ data) : (zeroEnded data).head? = some data.untilZero := by
  obtain ⟨first, rest, rfl, noZero⟩ := List.eq_append_cons_of_mem zero
  rw [zeroEnded_append noZero, List.head?_cons, Bytes.untilZero_append noZero]

end ZeroEnded

/-- Big-endian digits read as two's complement. -/
theorem signed_eq_toInt {width value : Nat} (positive : 0 < width) (fits : value < 256 ^ width) :
    Bytes.signed width value = (BitVec.ofNat (8 * width) value).toInt := by
  have bits : 256 ^ width = 2 ^ (8 * width) := by
    rw [show (256 : Nat) = 2 ^ 8 from rfl, ← Nat.pow_mul]
  have half : 2 ^ (8 * width) = 2 * 2 ^ (8 * width - 1) := by
    rw [← Nat.pow_succ', Nat.succ_eq_add_one, Nat.sub_add_cancel (by omega)]
  rw [bits] at fits
  rw [Bytes.signed, BitVec.toInt, BitVec.toNat_ofNat, Nat.mod_eq_of_lt fits, Nat.one_shiftLeft,
    Nat.one_shiftLeft]
  by_cases low : value < 2 ^ (8 * width - 1)
  · rw [if_pos low, if_pos (by omega)]
  · rw [if_neg low, if_neg (by omega)]

namespace Header

/-- So many strings are read where there are so many zero bytes. -/
theorem takeStrings?_eq (read : List String) (count : Nat) (data : Bytes) :
    takeStrings? read count data = if count ≤ data.count 0
      then some (read.reverse ++ ((zeroEnded data).take count).map Utf8.lossy) else none := by
  induction count generalizing read data with
  | zero => simp [takeStrings?]
  | succ count ih =>
    by_cases zero : 0 ∈ data
    · obtain ⟨first, rest, rfl, noZero⟩ := List.eq_append_cons_of_mem zero
      rw [takeStrings?_append _ _ noZero, ih, count_append_zero noZero, zeroEnded_append noZero]
      simp
    · have nothing : data.dropWhile (· != 0) = [] := List.dropWhile_eq_nil_iff.mpr
        fun byte member => bne_iff_ne.mpr (ne_of_mem_of_not_mem member zero)
      rw [takeStrings?, nothing, List.count_eq_zero_of_not_mem zero, if_neg (by omega)]

variable {header : Header} {tag : Int} {entry : HeaderEntry}

def dataOf (header : Header) (entry : HeaderEntry) : Bytes := header.store.drop entry.offset

/-- What is reported where so many strings are not there. -/
def missingStrings (data : Bytes) (count : Nat) : EntryFault :=
  if data.length < count then .tooManyStrings count else .unterminated

theorem readStrings_eq (header : Header) (entry : HeaderEntry) (count : Nat) :
    header.readStrings entry count = if count ≤ (header.dataOf entry).count 0
      then .ok (((zeroEnded (header.dataOf entry)).take count).map Utf8.lossy)
      else .error (.badEntry entry.tag (missingStrings (header.dataOf entry) count)) := by
  have bound : (header.dataOf entry).count 0 ≤ (header.dataOf entry).length := List.count_le_length
  rw [readStrings, ← List.length_drop, takeStrings?_eq, List.reverse_nil, List.nil_append, ← dataOf,
    missingStrings]
  by_cases short : (header.dataOf entry).length < count
  · rw [if_pos short, if_pos short, if_neg (by omega)]
  · rw [if_neg short, if_neg short]
    by_cases enough : count ≤ (header.dataOf entry).count 0
    · rw [if_pos enough, if_pos enough]
    · rw [if_neg enough, if_neg enough]

theorem tag_of_entry? (found : header.entry? tag = some entry) : entry.tag = tag := by
  have member := List.mem_of_getLast? found
  simpa using (List.mem_filter.mp member).2

/-- The types whose values are numbers, with the bytes of one. -/
def numberWidths : List (EntryType × Nat) :=
  [(.char, 1), (.int8, 1), (.int16, 2), (.int32, 4), (.int64, 8)]

theorem mem_numberWidths_iff {type : EntryType} {width : Nat} :
    (type, width) ∈ numberWidths ↔ type.integerWidth? = some width := by
  cases type <;> simp [numberWidths, EntryType.integerWidth?, eq_comm]

/-- The number at a position behind the place of an entry, in big-endian two's complement. -/
def numberAt (header : Header) (entry : HeaderEntry) (width position : Nat) : Int :=
  (BitVec.ofNat (8 * width)
    (slice header.store (entry.offset + position * width) width).natBE).toInt

section Found

variable (found : header.entry? tag = some entry)
include found

theorem strings?_of_list (type : entry.type ∈ [.stringArray, .i18nString]) :
    header.strings? tag = if entry.count ≤ (header.dataOf entry).count 0
      then .ok (some (((zeroEnded (header.dataOf entry)).take entry.count).map Utf8.lossy))
      else .error (.badEntry tag (missingStrings (header.dataOf entry) entry.count)) := by
  have read : header.strings? tag = (header.readStrings entry entry.count).map some := by
    rw [strings?, found]
    dsimp only
    revert type
    cases entry.type <;> simp
  rw [read, readStrings_eq, tag_of_entry? found]
  split_ifs <;> rfl

/-- The first string is what stands before the first zero byte. -/
theorem readStrings_one : header.readStrings entry 1 = if 0 ∈ header.dataOf entry
    then .ok [Utf8.lossy (header.dataOf entry).untilZero]
    else .error (.badEntry tag (missingStrings (header.dataOf entry) 1)) := by
  rw [readStrings_eq, tag_of_entry? found]
  by_cases zero : 0 ∈ header.dataOf entry
  · rw [if_pos (Nat.succ_le_of_lt (List.count_pos_iff.mpr zero)), if_pos zero, List.take_one,
      head?_zeroEnded zero]
    rfl
  · rw [List.count_eq_zero_of_not_mem zero, if_neg (by decide), if_neg zero]

theorem strings?_of_string (type : entry.type = .string) :
    header.strings? tag = if 0 ∈ header.dataOf entry
      then .ok (some [Utf8.lossy (header.dataOf entry).untilZero])
      else .error (.badEntry tag (missingStrings (header.dataOf entry) 1)) := by
  have read : header.strings? tag = (header.readStrings entry 1).map some := by
    rw [strings?, found]
    simp only [type]
  rw [read, readStrings_one found]
  split_ifs <;> rfl

theorem string?_of_text (type : entry.type ∈ [.string, .stringArray, .i18nString]) :
    header.string? tag = if entry.count = 0 then .ok none
      else if 0 ∈ header.dataOf entry
        then .ok (some (Utf8.lossy (header.dataOf entry).untilZero))
        else .error (.badEntry tag (missingStrings (header.dataOf entry) 1)) := by
  have read : header.string? tag = if entry.count = 0 then .ok none
      else (header.readStrings entry 1).map (·.head?) := by
    rw [string?, found]
    dsimp only
    revert type
    cases entry.type <;> simp
  rw [read, readStrings_one found]
  split_ifs <;> rfl

theorem integers?_of_number {width : Nat} (type : (entry.type, width) ∈ numberWidths) :
    header.integers? tag = if entry.offset + entry.count * width ≤ header.store.length
      then .ok (some ((List.range entry.count).map (header.numberAt entry width)))
      else .error (.badEntry tag (.valuesOverrun entry.count)) := by
  have integer := mem_numberWidths_iff.mp type
  obtain ⟨positive, -⟩ := InRange.integerWidth?_bounds integer
  rw [integers?, found]
  simp only [integer]
  by_cases inside : entry.offset + entry.count * width ≤ header.store.length
  · rw [if_neg (Nat.not_lt.mpr inside), if_pos inside,
      Bytes.toList_chunks_of_length positive (Bytes.length_slice inside), List.map_map]
    refine congrArg (Except.ok ∘ some) (List.map_congr_left fun position member => ?_)
    have below := Nat.mul_le_mul_right width (Nat.succ_le_of_lt (List.mem_range.mp member))
    rw [Nat.succ_mul] at below
    have digits : (slice header.store (entry.offset + position * width) width).natBE <
        256 ^ width := by
      have digits := Bytes.natIn_lt .big
        (slice header.store (entry.offset + position * width) width)
      rwa [Bytes.length_slice (by omega)] at digits
    rw [Function.comp_apply, Bytes.slice_slice _ _ below, numberAt,
      signed_eq_toInt positive digits]
  · rw [if_pos (Nat.not_le.mp inside), if_neg inside]

/-- Values of another kind are no text. -/
theorem string?_of_other (type : entry.type ∉ [.string, .stringArray, .i18nString]) :
    header.string? tag = .error (.badEntry tag (.notString entry.type)) ∧
      header.strings? tag = .error (.badEntry tag (.notStringArray entry.type)) := by
  rw [string?, strings?, found]
  dsimp only
  revert type
  cases entry.type <;> simp

/-- Values of another kind are no numbers. -/
theorem integers?_of_other (type : ∀ width, (entry.type, width) ∉ numberWidths) :
    header.integers? tag = .error (.badEntry tag (.notInteger entry.type)) := by
  have integer : entry.type.integerWidth? = none := by
    rw [Option.eq_none_iff_forall_ne_some]
    exact fun width integer => type width (mem_numberWidths_iff.mpr integer)
  rw [integers?, found]
  simp only [integer]

end Found

/-- Under a tag of a parsed header, what its entry says is read where it is in the data store, and
reported as a bad entry where it is not: as many strings as there are zero bytes from the place of
the entry on, the bytes before the first of them, or as many numbers as have room. A count of zero
leaves no single string. What is of another kind is never read. No read leaves the data store. -/
theorem accessors_spec {blob : Bytes} (parsed : parse blob = .ok header)
    (found : header.entry? tag = some entry) :
    (entry.type ∈ [.stringArray, .i18nString] →
      header.strings? tag = if entry.count ≤ (header.dataOf entry).count 0
        then .ok (some (((zeroEnded (header.dataOf entry)).take entry.count).map Utf8.lossy))
        else .error (.badEntry tag (missingStrings (header.dataOf entry) entry.count))) ∧
    (entry.type = .string →
      header.strings? tag = if 0 ∈ header.dataOf entry
        then .ok (some [Utf8.lossy (header.dataOf entry).untilZero])
        else .error (.badEntry tag (missingStrings (header.dataOf entry) 1))) ∧
    (entry.type ∈ [.string, .stringArray, .i18nString] →
      header.string? tag = if entry.count = 0 then .ok none
        else if 0 ∈ header.dataOf entry
          then .ok (some (Utf8.lossy (header.dataOf entry).untilZero))
          else .error (.badEntry tag (missingStrings (header.dataOf entry) 1))) ∧
    (∀ width, (entry.type, width) ∈ numberWidths →
      header.integers? tag = if entry.offset + entry.count * width ≤ header.store.length
        then .ok (some ((List.range entry.count).map (header.numberAt entry width)))
        else .error (.badEntry tag (.valuesOverrun entry.count))) ∧
    (entry.type ∉ [.string, .stringArray, .i18nString] →
      header.string? tag = .error (.badEntry tag (.notString entry.type)) ∧
      header.strings? tag = .error (.badEntry tag (.notStringArray entry.type))) ∧
    ((∀ width, (entry.type, width) ∉ numberWidths) →
      header.integers? tag = .error (.badEntry tag (.notInteger entry.type))) ∧
    (InRange.string? header tag).run = some (header.string? tag) ∧
    (InRange.strings? header tag).run = some (header.strings? tag) ∧
    (InRange.integers? header tag).run = some (header.integers? tag) := by
  have bounded := InRange.bounded_of_parse parsed
  exact ⟨strings?_of_list found, strings?_of_string found, string?_of_text found,
    fun _ => integers?_of_number found, string?_of_other found, integers?_of_other found,
    InRange.reaches_string? bounded tag, InRange.reaches_strings? bounded tag,
    InRange.reaches_integers? bounded tag⟩

section Sample

/-- Three strings, five strings, and a number of two bytes, over a data store of seven bytes, three
of them zero. -/
private def valuesHeader : Header where
  entries := [⟨1, .stringArray, 0, 3⟩, ⟨2, .stringArray, 2, 5⟩, ⟨3, .int16, 5, 1⟩]
  store := [0xFF, 0, 98, 0, 0, 0xFF, 0xFE]

/-- The last of the three strings is empty. Five strings would have room, but are not there. -/
theorem accessors_spec_sample :
    parse valuesHeader.bytes = .ok valuesHeader ∧
      valuesHeader.entry? 1 = some ⟨1, .stringArray, 0, 3⟩ ∧
      valuesHeader.strings? 1 = .ok (some ["\uFFFD", "b", ""]) ∧
      valuesHeader.strings? 2 = .error (.badEntry 2 .unterminated) ∧
      valuesHeader.string? 2 = .ok (some "b") ∧ valuesHeader.integers? 3 = .ok (some [-2]) := by
  have parsed : parse valuesHeader.bytes = .ok valuesHeader := by cbv
  have found : valuesHeader.entry? 1 = some ⟨1, .stringArray, 0, 3⟩ := by decide
  obtain ⟨three, -⟩ := accessors_spec parsed found
  obtain ⟨five, -, single, -⟩ := accessors_spec parsed
    (show valuesHeader.entry? 2 = some ⟨2, .stringArray, 2, 5⟩ by decide)
  obtain ⟨-, -, -, number, -⟩ := accessors_spec parsed
    (show valuesHeader.entry? 3 = some ⟨3, .int16, 5, 1⟩ by decide)
  refine ⟨parsed, found, ?_, ?_, ?_, ?_⟩
  · rw [three (by decide)]
    cbv
  · rw [five (by decide)]
    rfl
  · rw [single (by decide)]
    cbv
  · rw [number 2 (by decide)]
    rfl

end Sample

end Header

end ImageAudit.Rpm
