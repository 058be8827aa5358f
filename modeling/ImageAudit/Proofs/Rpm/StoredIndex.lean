import ImageAudit.Proofs.Rpm.HeaderIndex

/-! # The index of a stored header

A stored header declares how many entries and how large a data store it has. Where both may be and
are there, the header is parsed to the checked entries of its index, those of regions left out. An
entry passes its check when its type is known and its values begin in the data store.
-/

namespace ImageAudit.Rpm

open Bytes (slice)
open Fallible

/-- The type is known, and the values begin in a data store of this size. -/
structure IndexEntry.Sound (storeSize : Nat) (entry : IndexEntry) : Prop where
  type : entry.type ≤ 9
  low : 0 ≤ entry.offset
  high : entry.offset ≤ storeSize

section Check

variable {storeSize : Nat} {entry : IndexEntry}

theorem EntryType.exists_number {number : Nat} (known : number ≤ 9) :
    ∃ type, ofNat? number = some type ∧ type.number = number := by
  have inside : number < all.length := Nat.lt_succ_of_le known
  have distinct : all.Nodup := by decide
  exact ⟨all[number], List.getElem?_eq_getElem inside, distinct.idxOf_getElem number inside⟩

theorem EntryType.ofNat?_eq_none {number : Nat} (unknown : 9 < number) : ofNat? number = none :=
  List.getElem?_eq_none unknown

/-- A sound entry is checked without a loss. -/
theorem IndexEntry.Sound.check (sound : entry.Sound storeSize) :
    ∃ checked, entry.check storeSize = .ok checked ∧ checked.stored = entry := by
  obtain ⟨type, known, number⟩ := EntryType.exists_number sound.type
  have low := sound.low
  have high := sound.high
  have inside : ¬ (entry.offset < 0 ∨ (storeSize : Int) < entry.offset) := by omega
  refine ⟨⟨entry.tag, type, entry.offset.toNat, entry.count⟩, ?_, ?_⟩
  · rw [IndexEntry.check, known]
    exact if_neg inside
  · rw [HeaderEntry.stored, number, Int.toNat_of_nonneg low]

theorem IndexEntry.check_of_unknown (unknown : 9 < entry.type) :
    entry.check storeSize = .error (.unknownType entry.tag entry.type) := by
  rw [IndexEntry.check, EntryType.ofNat?_eq_none unknown]

theorem IndexEntry.check_of_outside (known : entry.type ≤ 9)
    (outside : entry.offset < 0 ∨ (storeSize : Int) < entry.offset) :
    entry.check storeSize =
      .error (.badEntry entry.tag (.offsetOutside entry.offset storeSize)) := by
  obtain ⟨type, found, -⟩ := EntryType.exists_number known
  rw [IndexEntry.check, found]
  exact if_pos outside

/-- Only sound entries pass their check. -/
theorem IndexEntry.of_check {checked : HeaderEntry} (passed : entry.check storeSize = .ok checked) :
    entry.Sound storeSize ∧ checked.stored = entry := by
  have sound : entry.Sound storeSize := by
    by_contra unsound
    by_cases known : entry.type ≤ 9
    · have outside : entry.offset < 0 ∨ (storeSize : Int) < entry.offset := by
        by_contra inside
        exact unsound ⟨known, by omega, by omega⟩
      rw [IndexEntry.check_of_outside known outside] at passed
      cases passed
    · rw [IndexEntry.check_of_unknown (Nat.not_le.mp known)] at passed
      cases passed
  obtain ⟨found, passed', stored⟩ := sound.check
  rw [passed] at passed'
  exact ⟨sound, Except.ok.inj passed' ▸ stored⟩

end Check

namespace Header

variable (blob : Bytes)

def declaredCount : Nat := (slice blob 0 4).natBE

def declaredStore : Nat := (slice blob 4 4).natBE

def entryAt (position : Nat) : IndexEntry :=
  .ofBytes (slice blob (8 + position * IndexEntry.size) IndexEntry.size)

def storedIndex : List IndexEntry := (List.range (declaredCount blob)).map (entryAt blob)

def storedStore : Bytes :=
  slice blob (8 + declaredCount blob * IndexEntry.size) (declaredStore blob)

/-- The header has an index and a data store that may be as large as they are declared, and that are
there. -/
structure Sized : Prop where
  counts : 8 ≤ blob.length
  some : 1 ≤ declaredCount blob
  few : declaredCount blob ≤ 0xffff
  small : declaredStore blob ≤ 0x0fffffff
  whole : 8 + 16 * declaredCount blob + declaredStore blob ≤ blob.length

/-- The parse in the words of what is declared. -/
theorem parse_eq : parse blob =
    if blob.length < 8 then .error (.truncated (.noCounts blob.length))
    else if declaredCount blob = 0 ∨ maxEntries < declaredCount blob then
      .error (.truncated (.indexCount (declaredCount blob)))
    else if maxStoreSize < declaredStore blob then
      .error (.truncated (.storeSize (declaredStore blob)))
    else if blob.length < 8 + declaredCount blob * IndexEntry.size + declaredStore blob then
      .error (.truncated (.cutShort blob.length
        (8 + declaredCount blob * IndexEntry.size + declaredStore blob)))
    else do
      let entries ← (((Bytes.chunks IndexEntry.size
        (slice blob 8 (declaredCount blob * IndexEntry.size))).toList.map
          IndexEntry.ofBytes).filter (!·.isRegion)).mapM (·.check (declaredStore blob))
      return ⟨entries, storedStore blob⟩ := rfl

variable {blob}

/-- What is left when none of the lengths and counts is at fault. -/
theorem sized_of_not (counts : ¬ blob.length < 8)
    (some : ¬ (declaredCount blob = 0 ∨ maxEntries < declaredCount blob))
    (small : ¬ maxStoreSize < declaredStore blob)
    (whole : ¬ blob.length < 8 + declaredCount blob * IndexEntry.size + declaredStore blob) :
    Sized blob where
  counts := Nat.not_lt.mp counts
  some := Nat.one_le_iff_ne_zero.mpr (not_or.mp some).1
  few := Nat.not_lt.mp (not_or.mp some).2
  small := Nat.not_lt.mp small
  whole := by
    simp only [IndexEntry.size] at whole
    omega

/-- A header of another size is truncated. -/
theorem parse_of_not_sized (unsized : ¬ Sized blob) :
    ∃ fault, parse blob = .error (.truncated fault) := by
  rw [parse_eq]
  split
  · exact ⟨_, rfl⟩
  split
  · exact ⟨_, rfl⟩
  split
  · exact ⟨_, rfl⟩
  split
  · exact ⟨_, rfl⟩
  case isFalse counts some small whole =>
    exact absurd (sized_of_not counts some small whole) unsized

section Index

variable (sized : Sized blob)
include sized

/-- The index is cut into its entries. -/
theorem map_chunks_index :
    (Bytes.chunks IndexEntry.size
      (slice blob 8 (declaredCount blob * IndexEntry.size))).toList.map IndexEntry.ofBytes =
        storedIndex blob := by
  have whole := sized.whole
  have long : (slice blob 8 (declaredCount blob * IndexEntry.size)).length =
      declaredCount blob * IndexEntry.size := by
    simp only [IndexEntry.size]
    exact Bytes.length_slice (by omega)
  rw [Bytes.toList_chunks_of_length (by decide) long, List.map_map, storedIndex]
  refine List.map_congr_left fun position member => ?_
  have below := List.mem_range.mp member
  rw [Function.comp_apply, entryAt, Bytes.slice_slice]
  simp only [IndexEntry.size]
  omega

/-- The index without regions is checked entry by entry. -/
theorem parse_of_sized : parse blob =
    (do
      let entries ← ((storedIndex blob).filter (!·.isRegion)).mapM (·.check (declaredStore blob))
      return ⟨entries, storedStore blob⟩) := by
  have counts := Nat.not_lt.mpr sized.counts
  have some : ¬ (declaredCount blob = 0 ∨ maxEntries < declaredCount blob) :=
    not_or.mpr ⟨Nat.one_le_iff_ne_zero.mp sized.some, Nat.not_lt.mpr sized.few⟩
  have small : ¬ maxStoreSize < declaredStore blob := Nat.not_lt.mpr sized.small
  have whole : ¬ blob.length < 8 + declaredCount blob * IndexEntry.size + declaredStore blob := by
    have whole := sized.whole
    simp only [IndexEntry.size]
    omega
  rw [parse_eq, if_neg counts, if_neg some, if_neg small, if_neg whole, map_chunks_index sized]

end Index

section Parsed

variable {header : Header} (parsed : parse blob = .ok header)
include parsed

theorem sized_of_parse : Sized blob := by
  by_contra unsized
  obtain ⟨fault, truncated⟩ := parse_of_not_sized unsized
  rw [truncated] at parsed
  cases parsed

/-- A parsed header has the declared data store, and one entry for each that is not of a region. -/
theorem of_parse : header.store = storedStore blob ∧
    List.Forall₂ (fun (stored : IndexEntry) entry =>
        stored.Sound (declaredStore blob) ∧ entry.stored = stored)
      ((storedIndex blob).filter (!·.isRegion)) header.entries := by
  rw [parse_of_sized (sized_of_parse parsed)] at parsed
  obtain ⟨entries, checked, same⟩ := bind_eq_ok_iff.mp parsed
  obtain rfl := Except.ok.inj same
  exact ⟨rfl, (mapM_eq_ok_iff.mp checked).imp fun _ _ => IndexEntry.of_check⟩

end Parsed

end Header

end ImageAudit.Rpm
