import ImageAudit.Proofs.Fallible
import ImageAudit.Proofs.Rpm.HashFile.WrittenPage

/-! # Chains of overflow pages

A value is cut into parts that fill their pages, but for the last. Each page of the chain names the
next one and keeps its part, so following the chain from its first page yields the parts in order,
and together they are the value. An empty value has one empty part.
-/

namespace ImageAudit.Rpm.HashFile

open Bytes (slice)
open Fallible

/-- Parts of a size, the last of which may be shorter. -/
inductive Cut (size : Nat) : List Bytes → Prop where
  | last {part : Bytes} (fits : part.length ≤ size) : Cut size [part]
  | cons {part : Bytes} {rest : List Bytes} (full : part.length = size) (more : Cut size rest) :
    Cut size (part :: rest)

theorem Cut.ne_nil {size : Nat} {parts : List Bytes} (cut : Cut size parts) : parts ≠ [] := by
  cases cut <;> exact List.cons_ne_nil _ _

theorem Cut.length_le {size : Nat} {parts : List Bytes} (cut : Cut size parts) {part : Bytes}
    (member : part ∈ parts) : part.length ≤ size := by
  induction cut with
  | last fits => rw [List.mem_singleton.mp member]; exact fits
  | cons full more ih =>
    rcases List.mem_cons.mp member with rfl | member
    · exact Nat.le_of_eq full
    · exact ih member

private theorem cut_chunks {size : Nat} (positive : 0 < size) {data : Bytes}
    (someData : data ≠ []) : Cut size (Bytes.chunks size data).toList := by
  induction long : data.length using Nat.strongRecOn generalizing data with
  | ind length ih =>
    rw [Bytes.toList_chunks positive someData]
    have someBytes : 0 < data.length := List.length_pos_iff.mpr someData
    by_cases more : data.drop size = []
    · rw [more, Bytes.toList_chunks_nil]
      exact .last (List.length_take_le ..)
    · have beyond : size < data.length := by
        rw [List.drop_eq_nil_iff] at more
        omega
      have cut := ih (data.drop size).length (by rw [List.length_drop]; omega) more rfl
      exact .cons (List.length_take_of_le (Nat.le_of_lt beyond)) cut

namespace Writer

variable (writer : Writer)

theorem cut_parts (room : pageHeaderSize < writer.pageSize) (value : Bytes) :
    Cut writer.pageCapacity (writer.parts value) ∧ (writer.parts value).flatten = value := by
  have positive : 0 < writer.pageCapacity := Nat.sub_pos_of_lt room
  unfold parts
  split
  case isTrue empty => exact ⟨.last (Nat.zero_le _), empty.symm⟩
  case isFalse someData =>
    exact ⟨cut_chunks positive someData, Bytes.flatten_chunks positive value⟩

section OverflowPage

variable {writer} (number previous next : Nat) {content : Bytes}
  (fits : pageHeaderSize + content.length ≤ writer.pageSize)
include fits

private theorem length_zeros_overwritten :
    (overwrite (Bytes.zeros writer.pageSize) pageHeaderSize content).length = writer.pageSize := by
  have size : (Bytes.zeros writer.pageSize).length = writer.pageSize := List.length_replicate ..
  rw [length_overwrite (by rw [size]; exact fits), size]

private theorem enough_overwritten :
    pageHeaderSize ≤ (overwrite (Bytes.zeros writer.pageSize) pageHeaderSize content).length := by
  rw [length_zeros_overwritten fits]
  omega

theorem length_overflowPage :
    (writer.overflowPage number previous next content).length = writer.pageSize := by
  rw [overflowPage, length_withPageHeader _ _ _ _ _ _ _ (enough_overwritten fits),
    length_zeros_overwritten fits]

theorem slice_overflowPage_type :
    slice (writer.overflowPage number previous next content) 25 1 =
      [UInt8.ofNat overflowPageType] :=
  slice_withPageHeader_type _ _ _ _ _ _ _ (enough_overwritten fits)

theorem slice_overflowPage_next :
    slice (writer.overflowPage number previous next content) 16 4 = writer.word next :=
  slice_withPageHeader_next _ _ _ _ _ _ _ (enough_overwritten fits)

theorem slice_overflowPage_used :
    slice (writer.overflowPage number previous next content) 22 2 = writer.short content.length :=
  slice_withPageHeader_free _ _ _ _ _ _ _ (enough_overwritten fits)

theorem slice_overflowPage_content :
    slice (writer.overflowPage number previous next content) pageHeaderSize content.length =
      content := by
  have size : (Bytes.zeros writer.pageSize).length = writer.pageSize := List.length_replicate ..
  rw [overflowPage, slice_withPageHeader_behind _ _ _ _ _ _ _ (enough_overwritten fits)
    (Nat.le_refl _), slice_overwrite_within (by rw [size]; exact fits) (Nat.le_refl _)
    (Nat.le_refl _), Nat.sub_self, Bytes.slice_self rfl]

end OverflowPage

end Writer

section Reading

variable (file : HashFile)

/-- A page of a chain keeps a part of a value and names the next page; the last one names none. -/
def HoldsPart (number next : Nat) (part : Bytes) : Prop :=
  ∃ page, file.page number = .ok page ∧ page.byteAt 25 = overflowPageType ∧
    file.word page 16 = next ∧ file.payload number page (next == 0) = .ok part

/-- The parts of a value lie on the pages from a number on, one after the other. -/
inductive HoldsChain : Nat → List Bytes → Prop where
  | last {number : Nat} {part : Bytes} (holds : file.HoldsPart number 0 part) :
    HoldsChain number [part]
  | cons {number : Nat} {part : Bytes} {rest : List Bytes}
    (holds : file.HoldsPart number (number + 1) part) (more : HoldsChain (number + 1) rest) :
    HoldsChain number (part :: rest)

variable {file}

private theorem HoldsPart.followChain {number next : Nat} {part : Bytes}
    (holds : file.HoldsPart number next part) (noEnd : number ≠ 0) (first hops : Nat)
    (read : List Bytes) :
    file.followChain first (hops + 1) number read =
      file.followChain first hops next (part :: read) := by
  obtain ⟨page, found, type, link, content⟩ := holds
  obtain ⟨number, rfl⟩ := Nat.exists_eq_succ_of_ne_zero noEnd
  simp only [HashFile.followChain, found, ok_bind, type, ne_eq, not_true_eq_false, if_false, link,
    content]

/-- A chain is followed to its end when there are as many pages to go. -/
theorem HoldsChain.followChain {number : Nat} {parts : List Bytes}
    (holds : file.HoldsChain number parts) (noEnd : number ≠ 0) (first : Nat) {hops : Nat}
    (enough : parts.length ≤ hops) (read : List Bytes) :
    file.followChain first hops number read = .ok (read.reverse ++ parts) := by
  induction holds generalizing hops read with
  | @last number part holds =>
    obtain ⟨hops, rfl⟩ := Nat.exists_eq_add_of_le' enough
    rw [List.length_singleton, holds.followChain noEnd, HashFile.followChain, List.reverse_cons]
  | @cons number part rest holds more ih =>
    obtain ⟨hops, rfl⟩ := Nat.exists_eq_add_of_le' enough
    rw [List.length_cons, ← Nat.add_assoc, holds.followChain noEnd,
      ih (Nat.succ_ne_zero _) (by omega), List.reverse_cons, List.append_assoc,
      List.singleton_append]

/-- The value of a chain is what its parts make together. -/
theorem HoldsChain.chainValue {first : Nat} {parts : List Bytes}
    (holds : file.HoldsChain first parts) (noEnd : first ≠ 0)
    (enough : parts.length ≤ file.lastPage) :
    file.chainValue first parts.flatten.length = .ok parts.flatten := by
  rw [HashFile.chainValue, holds.followChain noEnd first enough, ok_bind, List.reverse_nil,
    List.nil_append]
  simp only [Nat.lt_irrefl, if_false, List.take_length]
  rfl

section Written

variable {writer : Writer} (order : file.order = writer.order)
  (pageSize : file.pageSize = writer.pageSize) (largest : writer.pageSize ≤ maxPageSize)
include order pageSize largest

/-- A page that is written for a part keeps it, when the part fills it or is the last. -/
theorem holdsPart_of_overflowPage {number own previous next : Nat} {part : Bytes}
    (found : file.page number = .ok (writer.overflowPage own previous next part).toArray)
    (fits : pageHeaderSize + part.length ≤ writer.pageSize) (nextFits : next < 0x100000000)
    (full : next ≠ 0 → part.length = writer.pageCapacity) : file.HoldsPart number next part := by
  have content := Writer.slice_overflowPage_content own previous next fits
  refine ⟨_, found, ?_, ?_, ?_⟩
  · exact byteAt_of_slice (Writer.slice_overflowPage_type own previous next fits)
  · exact word_of_slice (order ▸ Writer.slice_overflowPage_next own previous next fits) nextFits
  · by_cases last : next = 0
    · subst last
      have used : file.short (writer.overflowPage own previous 0 part).toArray 22 =
          part.length := by
        simp only [maxPageSize, pageHeaderSize] at largest fits
        exact short_of_slice (order ▸ Writer.slice_overflowPage_used own previous 0 fits) (by omega)
      have room : ¬ file.pageSize < pageHeaderSize + part.length := by omega
      rw [payload, beq_self_eq_true, if_pos rfl, used, if_neg room, slice_toArray, content]
    · have more : (next == 0) = false := beq_false_of_ne last
      have rest : ((writer.overflowPage own previous next part).drop pageHeaderSize).length ≤
          part.length := by
        rw [List.length_drop, Writer.length_overflowPage own previous next fits, full last]
        exact Nat.le_refl _
      rw [payload, more, if_neg Bool.false_ne_true]
      rw [slice, List.take_of_length_le rest] at content
      exact congrArg Except.ok content

end Written

end Reading

end ImageAudit.Rpm.HashFile
