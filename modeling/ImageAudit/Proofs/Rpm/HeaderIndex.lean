import ImageAudit.Proofs.Bytes
import ImageAudit.Proofs.Fallible
import ImageAudit.Rpm.Header.Writer

/-! # The index of a finished header

An entry whose numbers fit their places is read back as it was stored. A finished header is parsed
to the entries that were written, without the region around them, and to its closed data store.
-/

namespace ImageAudit.Rpm

open Fallible

section Entries

theorem length_word32 (value : Int) : (word32 value).length = 4 := Bytes.length_ofNatBE ..

theorem length_bytes (entry : IndexEntry) : entry.bytes.length = IndexEntry.size := by
  simp only [IndexEntry.bytes, List.length_append, length_word32, Bytes.length_ofNatBE]
  rfl

/-- A number in 32 bits is read back with its sign. -/
theorem signed_word32 {value : Int} (low : -0x80000000 ≤ value) (high : value < 0x80000000) :
    Bytes.signed 4 (word32 value).natBE = value := by
  have fits : (value % 0x100000000).toNat < 0x100000000 := by omega
  rw [word32, Bytes.natBE_ofNatBE fits, Bytes.signed]
  split <;> omega

/-- The numbers of an entry fit their places. -/
structure IndexEntry.Fits (entry : IndexEntry) : Prop where
  tagLow : -0x80000000 ≤ entry.tag
  tagHigh : entry.tag < 0x80000000
  type : entry.type < 0x100000000
  offsetLow : -0x80000000 ≤ entry.offset
  offsetHigh : entry.offset < 0x80000000
  count : entry.count < 0x100000000

theorem IndexEntry.Fits.ofBytes_bytes {entry : IndexEntry} (fits : entry.Fits) :
    IndexEntry.ofBytes entry.bytes = entry := by
  have tag : entry.bytes.slice 0 4 = word32 entry.tag := by
    simp only [IndexEntry.bytes, List.append_assoc]
    exact Bytes.slice_zero _ (length_word32 _)
  have type : entry.bytes.slice 4 4 = Bytes.ofNatBE 4 entry.type := by
    simp only [IndexEntry.bytes, List.append_assoc]
    rw [Bytes.slice_append_right _ 0 _ (by rw [length_word32])]
    exact Bytes.slice_zero _ (Bytes.length_ofNatBE ..)
  have offset : entry.bytes.slice 8 4 = word32 entry.offset := by
    rw [IndexEntry.bytes, List.append_assoc]
    rw [Bytes.slice_append_right _ 0 _
      (by rw [List.length_append, length_word32, Bytes.length_ofNatBE])]
    exact Bytes.slice_zero _ (length_word32 _)
  have count : entry.bytes.slice 12 4 = Bytes.ofNatBE 4 entry.count := by
    rw [IndexEntry.bytes, Bytes.slice_append_right _ 0 _
      (by simp only [List.length_append, length_word32, Bytes.length_ofNatBE])]
    rw [← List.append_nil (Bytes.ofNatBE 4 entry.count)]
    exact Bytes.slice_zero _ (Bytes.length_ofNatBE ..)
  rw [IndexEntry.ofBytes, tag, type, offset, count, signed_word32 fits.tagLow fits.tagHigh,
    signed_word32 fits.offsetLow fits.offsetHigh, Bytes.natBE_ofNatBE fits.type,
    Bytes.natBE_ofNatBE fits.count]

def EntryType.number (type : EntryType) : Nat := EntryType.all.idxOf type

@[simp] theorem EntryType.ofNat?_number (type : EntryType) : ofNat? type.number = some type := by
  cases type <;> rfl

theorem EntryType.number_lt (type : EntryType) : type.number < 10 := by
  cases type <;> decide

def HeaderEntry.stored (entry : HeaderEntry) : IndexEntry :=
  ⟨entry.tag, entry.type.number, entry.offset, entry.count⟩

/-- The entry lies in a data store of a size and has a tag of its own. -/
structure HeaderEntry.Fits (storeSize : Nat) (entry : HeaderEntry) : Prop where
  tagLow : -0x80000000 ≤ entry.tag
  tagHigh : entry.tag < 0x80000000
  noRegion : ¬ (61 ≤ entry.tag ∧ entry.tag ≤ 63)
  offset : entry.offset ≤ storeSize
  count : entry.count ≤ storeSize

/-- A header as it is stored without regions. -/
def Header.bytes (header : Header) : Bytes :=
  Bytes.ofNatBE 4 header.entries.length ++ Bytes.ofNatBE 4 header.store.length ++
    (header.entries.map HeaderEntry.stored).flatMap IndexEntry.bytes ++ header.store

section Stored

variable {storeSize : Nat} {entry : HeaderEntry} (fits : entry.Fits storeSize)
include fits

theorem HeaderEntry.Fits.check_stored : entry.stored.check storeSize = .ok entry := by
  have inside : ¬ ((entry.offset : Int) < 0 ∨ (storeSize : Int) < entry.offset) := by
    have := fits.offset
    omega
  rw [IndexEntry.check, HeaderEntry.stored, EntryType.ofNat?_number]
  exact if_neg inside

theorem HeaderEntry.Fits.isRegion_stored : entry.stored.isRegion = false := by
  rw [← Bool.not_eq_true, IndexEntry.isRegion, Bool.and_eq_true, decide_eq_true_eq,
    decide_eq_true_eq]
  exact fits.noRegion

theorem HeaderEntry.Fits.stored (small : storeSize ≤ Header.maxStoreSize) : entry.stored.Fits where
  tagLow := fits.tagLow
  tagHigh := fits.tagHigh
  type := by
    have := entry.type.number_lt
    simp only [HeaderEntry.stored]
    omega
  offsetLow := by
    simp only [HeaderEntry.stored]
    omega
  offsetHigh := by
    have := fits.offset
    simp only [HeaderEntry.stored, Header.maxStoreSize] at small ⊢
    omega
  count := by
    have := fits.count
    simp only [HeaderEntry.stored, Header.maxStoreSize] at small ⊢
    omega

end Stored

end Entries

namespace HeaderBuilder

/-- The data store with the trailer that closes it. -/
def closedStore (builder : HeaderBuilder) : Bytes :=
  let count := builder.entries.length + 1
  builder.paddedStore ++
    IndexEntry.bytes ⟨Tag.immutableRegion, 7, -(count * IndexEntry.size : Nat), 16⟩

def region (builder : HeaderBuilder) : IndexEntry :=
  ⟨Tag.immutableRegion, 7, builder.paddedStore.length, 16⟩

theorem length_closedStore (builder : HeaderBuilder) :
    builder.closedStore.length = builder.paddedStore.length + IndexEntry.size := by
  rw [closedStore, List.length_append, length_bytes]

theorem store_prefix_closedStore (builder : HeaderBuilder) :
    builder.store <+: builder.closedStore :=
  (List.prefix_append ..).trans (List.prefix_append ..)

theorem finish_eq (builder : HeaderBuilder) :
    builder.finish = Bytes.ofNatBE 4 (builder.entries.length + 1) ++
      (Bytes.ofNatBE 4 builder.closedStore.length ++
        (((builder.region :: builder.entries).map IndexEntry.bytes).flatten ++
          builder.closedStore)) := by
  simp only [finish, closedStore, region, List.flatMap_def, List.append_assoc]

private theorem length_of_mem_bytes (entries : List IndexEntry) :
    ∀ piece ∈ entries.map IndexEntry.bytes, piece.length = IndexEntry.size := by
  intro piece member
  obtain ⟨entry, _, rfl⟩ := List.mem_map.mp member
  exact length_bytes entry

private theorem length_flatten_bytes (entries : List IndexEntry) :
    (entries.map IndexEntry.bytes).flatten.length = entries.length * IndexEntry.size := by
  rw [Bytes.length_flatten_of_sizes (length_of_mem_bytes entries), List.length_map]

private theorem ofBytes_chunks {entries : List IndexEntry} (fits : ∀ entry ∈ entries, entry.Fits) :
    (Bytes.chunks IndexEntry.size (entries.map IndexEntry.bytes).flatten).toList.map
      IndexEntry.ofBytes = entries := by
  rw [Bytes.toList_chunks_flatten (by decide) (length_of_mem_bytes entries), List.map_map]
  exact (List.map_congr_left fun entry member => (fits entry member).ofBytes_bytes).trans
    (List.map_id entries)

section Layout

variable (builder : HeaderBuilder)

private theorem length_finish :
    builder.finish.length =
      8 + (builder.entries.length + 1) * IndexEntry.size + builder.closedStore.length := by
  rw [finish_eq]
  simp only [List.length_append, Bytes.length_ofNatBE, length_flatten_bytes, List.length_cons]
  omega

private theorem slice_count :
    builder.finish.slice 0 4 = Bytes.ofNatBE 4 (builder.entries.length + 1) := by
  rw [finish_eq]
  exact Bytes.slice_zero _ (Bytes.length_ofNatBE ..)

private theorem slice_size :
    builder.finish.slice 4 4 = Bytes.ofNatBE 4 builder.closedStore.length := by
  rw [finish_eq, Bytes.slice_append_right _ 0 _ (by rw [Bytes.length_ofNatBE])]
  exact Bytes.slice_zero _ (Bytes.length_ofNatBE ..)

private theorem slice_index :
    builder.finish.slice 8 ((builder.entries.length + 1) * IndexEntry.size) =
      ((builder.region :: builder.entries).map IndexEntry.bytes).flatten := by
  rw [finish_eq, ← List.append_assoc, Bytes.slice_append_right _ 0 _
    (by simp only [List.length_append, Bytes.length_ofNatBE])]
  exact Bytes.slice_zero _ (length_flatten_bytes _)

private theorem slice_store :
    builder.finish.slice (8 + (builder.entries.length + 1) * IndexEntry.size)
      builder.closedStore.length = builder.closedStore := by
  have before : (Bytes.ofNatBE 4 (builder.entries.length + 1) ++
      Bytes.ofNatBE 4 builder.closedStore.length ++
        ((builder.region :: builder.entries).map IndexEntry.bytes).flatten).length =
      8 + (builder.entries.length + 1) * IndexEntry.size := by
    simp only [List.length_append, Bytes.length_ofNatBE, length_flatten_bytes, List.length_cons]
  rw [finish_eq, ← List.append_assoc, ← List.append_assoc,
    Bytes.slice_append_right _ 0 _ before.symm, Bytes.slice_self rfl]

end Layout

section Parsed

variable {builder : HeaderBuilder} {entries : List HeaderEntry}
  (stored : builder.entries = entries.map HeaderEntry.stored)
  (fits : ∀ entry ∈ entries, entry.Fits builder.closedStore.length)
  (small : builder.closedStore.length ≤ Header.maxStoreSize)
include stored fits

private theorem filter_isRegion :
    (builder.region :: builder.entries).filter (!·.isRegion) = builder.entries := by
  have region : (!builder.region.isRegion) = false := rfl
  rw [List.filter_cons, region, if_neg Bool.false_ne_true, List.filter_eq_self, stored]
  intro index member
  obtain ⟨entry, inside, rfl⟩ := List.mem_map.mp member
  rw [(fits entry inside).isRegion_stored, Bool.not_false]

private theorem mapM_check :
    builder.entries.mapM (·.check builder.closedStore.length) = .ok entries := by
  rw [mapM_eq_ok_iff, stored, List.forall₂_map_left_iff, List.forall₂_same]
  exact fun entry member => (fits entry member).check_stored

include small

private theorem index_fits : ∀ entry ∈ builder.region :: builder.entries, entry.Fits := by
  intro entry member
  rcases List.mem_cons.mp member with rfl | member
  · have long := builder.length_closedStore
    simp only [IndexEntry.size, Header.maxStoreSize] at long small
    constructor <;> simp only [region, Tag.immutableRegion] <;> omega
  · rw [stored] at member
    obtain ⟨entry, inside, rfl⟩ := List.mem_map.mp member
    exact (fits entry inside).stored small

/-- A finished header is parsed to the entries written and the closed data store. -/
theorem parse_finish (few : builder.entries.length < Header.maxEntries) :
    Header.parse builder.finish = .ok ⟨entries, builder.closedStore⟩ := by
  have counted : (builder.finish.slice 0 4).natBE = builder.entries.length + 1 := by
    have fits : builder.entries.length + 1 < 256 ^ 4 := by
      simp only [Header.maxEntries] at few
      omega
    rw [slice_count, Bytes.natBE_ofNatBE fits]
  have sized : (builder.finish.slice 4 4).natBE = builder.closedStore.length := by
    have fits : builder.closedStore.length < 256 ^ 4 := by
      simp only [Header.maxStoreSize] at small
      omega
    rw [slice_size, Bytes.natBE_ofNatBE fits]
  have long := builder.length_finish
  have enough : ¬ builder.finish.length < 8 := by omega
  have someEntries : ¬ (builder.entries.length + 1 = 0 ∨
      Header.maxEntries < builder.entries.length + 1) := by omega
  have complete : ¬ builder.finish.length <
      8 + (builder.entries.length + 1) * IndexEntry.size + builder.closedStore.length := by omega
  simp only [Header.parse, counted, sized, slice_index, slice_store]
  rw [if_neg enough, if_neg someEntries, if_neg (Nat.not_lt.mpr small), if_neg complete,
    ofBytes_chunks (index_fits stored fits small), filter_isRegion stored fits,
    mapM_check stored fits]
  rfl

end Parsed

end HeaderBuilder

end ImageAudit.Rpm
