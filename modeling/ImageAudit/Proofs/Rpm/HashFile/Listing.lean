import ImageAudit.Proofs.Fallible
import ImageAudit.Proofs.Rpm.HashFile.WrittenPage
import Mathlib.Data.List.Induction

/-! # Values listed on a hash page

Slots grow from the page header on and items from the end of the page down. As long as they do not
meet, listing one more value changes nothing that is listed already; so the page that is read lists
the places of all values, in order.
-/

namespace ImageAudit.Rpm.HashFile

open Bytes (slice)
open Fallible

namespace Writer

/-- The bytes of a pair of slots with their items. -/
def pairSize : Nat := 21

variable (writer : Writer)

/-- Where the item of a pair lies that gives the place of its value. -/
def itemPlace (pair : Nat) : Nat := writer.pageSize - 17 * (pair + 1)

/-- A page lists, under a pair, the first page of a value's chain and its length. -/
structure ListsAt (page : Bytes) (pair first length : Nat) : Prop where
  slot : slice page (pageHeaderSize + (2 * pair + 1) * 2) 2 = writer.short (writer.itemPlace pair)
  type : slice page (writer.itemPlace pair) 1 = [UInt8.ofNat placeItemType]
  first : slice page (writer.itemPlace pair + 4) 4 = writer.word first
  length : slice page (writer.itemPlace pair + 8) 4 = writer.word length

/-- The listing holds the values, and its free space lies between the slots and the items. -/
structure Lists (listing : Listing) (values : List (Nat × Nat × Nat)) : Prop where
  size : listing.page.length = writer.pageSize
  cursor : listing.cursor + 17 * values.length = writer.pageSize
  slot : listing.slot = pageHeaderSize + 4 * values.length
  items : ∀ pair place, values[pair]? = some place →
    writer.ListsAt listing.page pair place.2.1 place.2.2

/-- What listing one more value writes. -/
def listedFields (listing : Listing) (value : Nat × Nat × Nat) : List (Nat × Bytes) :=
  [(listing.cursor - 5, UInt8.ofNat inlineItemType :: Bytes.ofNatLE 4 (value.1 + 1)),
    (listing.slot, writer.short (listing.cursor - 5)),
    (listing.cursor - 5 - placeSize, [UInt8.ofNat placeItemType]),
    (listing.cursor - 5 - placeSize + 4, writer.word value.2.1 ++ writer.word value.2.2),
    (listing.slot + 2, writer.short (listing.cursor - 5 - placeSize))]

variable {writer}

theorem page_listValue (listing : Listing) (value : Nat × Nat × Nat) :
    (writer.listValue listing value).page =
      overwriteAll listing.page (writer.listedFields listing value) := rfl

section Step

variable {listing : Listing} (value : Nat × Nat × Nat)
  (inside : listing.cursor ≤ listing.page.length)
  (room : listing.slot + pairSize ≤ listing.cursor)
include inside room

private theorem listedFields_fit : FitIn listing.page (writer.listedFields listing value) := by
  intro field member
  simp only [listedFields, List.mem_cons, List.not_mem_nil, or_false] at member
  simp only [pairSize, placeSize] at *
  rcases member with rfl | rfl | rfl | rfl | rfl
  all_goals
    simp
    omega

/-- Listing a value writes into the free space only. -/
theorem slice_listValue_apart {offset length : Nat}
    (apart : offset + length ≤ listing.slot ∨ listing.cursor ≤ offset) :
    slice (writer.listValue listing value).page offset length =
      slice listing.page offset length := by
  rw [page_listValue, slice_overwriteAll_apart (listedFields_fit value inside room)]
  intro field member
  simp only [listedFields, List.mem_cons, List.not_mem_nil, or_false] at member
  simp only [pairSize, placeSize] at *
  rcases member with rfl | rfl | rfl | rfl | rfl
  all_goals
    simp
    omega

/-- The value is listed under the next pair. -/
theorem listsAt_listValue {pair : Nat} (slot : listing.slot = pageHeaderSize + 4 * pair)
    (cursor : listing.cursor = writer.pageSize - 17 * pair) :
    writer.ListsAt (writer.listValue listing value).page pair value.2.1 value.2.2 := by
  have fit : FitIn listing.page (writer.listedFields listing value) :=
    listedFields_fit value inside room
  have place : writer.itemPlace pair = listing.cursor - 5 - placeSize := by
    simp only [itemPlace, placeSize]
    omega
  have slot' : pageHeaderSize + (2 * pair + 1) * 2 = listing.slot + 2 := by omega
  have itemApart {offset length : Nat} (item : listing.cursor - 5 - placeSize ≤ offset) :
      ApartFrom offset length
        [(listing.slot + 2, writer.short (listing.cursor - 5 - placeSize))] := by
    intro field member
    rw [List.mem_singleton.mp member, length_short]
    simp only [pairSize, placeSize] at *
    omega
  rw [page_listValue]
  constructor
  · rw [slot', place]
    exact slice_overwriteAll_self ((writer.listedFields listing value).take 4) [] fit
      (length_short ..) fun field member => absurd member List.not_mem_nil
  · rw [place]
    refine slice_overwriteAll_self ((writer.listedFields listing value).take 2)
      ((writer.listedFields listing value).drop 3) fit rfl ?_
    intro field member
    rcases List.mem_cons.mp member with rfl | member
    · simp only
      omega
    · exact itemApart (Nat.le_refl _) field member
  · rw [place]
    refine (slice_overwriteAll_within ((writer.listedFields listing value).take 3)
      ((writer.listedFields listing value).drop 4) (listing.cursor - 5 - placeSize + 4) fit
      (Nat.le_refl _) ?_
      (itemApart (by omega))).trans ?_
    · simp
    · rw [Nat.sub_self]
      exact Bytes.slice_zero _ (length_word ..)
  · rw [place]
    refine (slice_overwriteAll_within ((writer.listedFields listing value).take 3)
      ((writer.listedFields listing value).drop 4) (listing.cursor - 5 - placeSize + 4) fit
      (by omega) ?_
      (itemApart (by omega))).trans ?_
    · simp
    · rw [Bytes.slice_append_right _ 0 _ (by rw [length_word]; omega),
        Bytes.slice_self (length_word ..)]

end Step

/-- Listing one more value keeps those listed before. -/
theorem Lists.listValue {listing : Listing} {values : List (Nat × Nat × Nat)}
    (lists : writer.Lists listing values) (value : Nat × Nat × Nat)
    (room : pageHeaderSize + pairSize * (values.length + 1) ≤ writer.pageSize) :
    writer.Lists (writer.listValue listing value) (values ++ [value]) := by
  obtain ⟨size, cursor, slot, items⟩ := lists
  simp only [pairSize] at room
  have inside : listing.cursor ≤ listing.page.length := by omega
  have free : listing.slot + pairSize ≤ listing.cursor := by
    simp only [pairSize]
    omega
  constructor
  · rw [page_listValue, length_overwriteAll (listedFields_fit value inside free), size]
  · simp only [Writer.listValue, placeSize, List.length_append, List.length_singleton]
    omega
  · simp only [Writer.listValue, List.length_append, List.length_singleton]
    omega
  · intro pair place found
    rw [List.getElem?_append] at found
    split at found
    case isTrue earlier =>
      obtain ⟨slotAt, type, first, length⟩ := items pair place found
      have above : listing.cursor ≤ writer.itemPlace pair := by
        simp only [itemPlace]
        omega
      constructor
      · rw [slice_listValue_apart value inside free (.inl (by omega)), slotAt]
      · rw [slice_listValue_apart value inside free (.inr above), type]
      · rw [slice_listValue_apart value inside free (.inr (by omega)), first]
      · rw [slice_listValue_apart value inside free (.inr (by omega)), length]
    case isFalse later =>
      have last : pair = values.length := by
        have := (List.getElem?_eq_some_iff.mp found).1
        rw [List.length_singleton] at this
        omega
      rw [last, Nat.sub_self, List.getElem?_cons_zero] at found
      cases found
      rw [last]
      exact listsAt_listValue value inside free slot (by omega)

/-- As many values are listed as there is room for. -/
theorem lists_foldl {values : List (Nat × Nat × Nat)}
    (room : pageHeaderSize + pairSize * values.length ≤ writer.pageSize) :
    writer.Lists (values.foldl writer.listValue
      ⟨Bytes.zeros writer.pageSize, writer.pageSize, pageHeaderSize⟩) values := by
  induction values using List.reverseRecOn with
  | nil => exact ⟨List.length_replicate .., rfl, rfl, fun pair place found => by simp at found⟩
  | append_singleton values value ih =>
    rw [List.length_append, List.length_singleton] at room
    rw [List.foldl_concat]
    exact (ih (by simp only [pairSize] at *; omega)).listValue value room

section HashPage

variable (number : Nat) {values : List (Nat × Nat × Nat)}
  (room : pageHeaderSize + pairSize * values.length ≤ writer.pageSize)
include room

theorem length_hashPage : (writer.hashPage number values).length = writer.pageSize := by
  have lists := lists_foldl room
  rw [hashPage, length_withPageHeader, lists.size]
  rw [lists.size]
  omega

theorem slice_hashPage_type :
    slice (writer.hashPage number values) 25 1 = [UInt8.ofNat hashPageType] := by
  have lists := lists_foldl room
  refine slice_withPageHeader_type _ _ _ _ _ _ _ ?_
  rw [lists.size]
  omega

theorem slice_hashPage_entries :
    slice (writer.hashPage number values) 20 2 = writer.short (values.length * 2) := by
  have lists := lists_foldl room
  refine slice_withPageHeader_entries _ _ _ _ _ _ _ ?_
  rw [lists.size]
  omega

/-- The header of the page leaves what is listed. -/
theorem listsAt_hashPage {pair : Nat} {place : Nat × Nat × Nat}
    (found : values[pair]? = some place) :
    writer.ListsAt (writer.hashPage number values) pair place.2.1 place.2.2 := by
  have lists := lists_foldl room
  obtain ⟨slot, type, first, length⟩ := lists.items pair place found
  have inside := (List.getElem?_eq_some_iff.mp found).1
  have enough : pageHeaderSize ≤ (values.foldl writer.listValue
      ⟨Bytes.zeros writer.pageSize, writer.pageSize, pageHeaderSize⟩).page.length := by
    rw [lists.size]
    omega
  have behind : pageHeaderSize ≤ writer.itemPlace pair := by
    simp only [itemPlace, pairSize] at *
    omega
  constructor
  · rw [hashPage, slice_withPageHeader_behind _ _ _ _ _ _ _ enough (by omega), slot]
  · rw [hashPage, slice_withPageHeader_behind _ _ _ _ _ _ _ enough behind, type]
  · rw [hashPage, slice_withPageHeader_behind _ _ _ _ _ _ _ enough (by omega), first]
  · rw [hashPage, slice_withPageHeader_behind _ _ _ _ _ _ _ enough (by omega), length]

end HashPage

end Writer

section Reading

variable {file : HashFile} {writer : Writer} (order : file.order = writer.order)
  (pageSize : file.pageSize = writer.pageSize) (largest : writer.pageSize ≤ maxPageSize)
include order pageSize largest

/-- The value whose place is listed under a pair is read from its slot. -/
theorem slotValue?_of_listsAt {page value : Bytes} {number pair first length : Nat}
    (lists : writer.ListsAt page pair first length)
    (room : pageHeaderSize + Writer.pairSize * (pair + 1) ≤ writer.pageSize)
    (firstFits : first < 0x100000000) (lengthFits : length < 0x100000000)
    (read : file.chainValue first length = .ok value) :
    file.slotValue? number page.toArray (2 * pair + 1) = .ok (some value) := by
  simp only [Writer.pairSize, maxPageSize] at room largest
  obtain ⟨slot, type, firstAt, lengthAt⟩ := lists
  have small : writer.itemPlace pair + 17 * (pair + 1) = writer.pageSize := by
    simp only [Writer.itemPlace]
    omega
  have item : file.short page.toArray (pageHeaderSize + (2 * pair + 1) * 2) =
      writer.itemPlace pair := short_of_slice (order ▸ slot) (by omega)
  have isPlace : Page.byteAt page.toArray (writer.itemPlace pair) = placeItemType :=
    byteAt_of_slice type
  have first' : file.word page.toArray (writer.itemPlace pair + 4) = first :=
    word_of_slice (order ▸ firstAt) firstFits
  have length' : file.word page.toArray (writer.itemPlace pair + 8) = length :=
    word_of_slice (order ▸ lengthAt) lengthFits
  have inside : ¬ file.pageSize ≤ writer.itemPlace pair := by omega
  have whole : ¬ file.pageSize < writer.itemPlace pair + placeSize := by
    simp only [placeSize]
    omega
  simp only [slotValue?, item, if_neg inside, isPlace, ne_eq, not_true_eq_false, if_false,
    if_neg whole, first', length', read]
  rfl

/-- A page of a hash file yields the values whose places it lists. -/
theorem pageValues_of_hashPage {number own : Nat} {places : List (Nat × Nat × Nat)}
    {values : List Bytes}
    (found : file.page number = .ok (writer.hashPage own places).toArray)
    (room : pageHeaderSize + Writer.pairSize * places.length ≤ writer.pageSize)
    (read : List.Forall₂ (fun place value => place.2.1 < 0x100000000 ∧ place.2.2 < 0x100000000 ∧
      file.chainValue place.2.1 place.2.2 = .ok value) places values) :
    file.pageValues number = .ok values := by
  simp only [Writer.pairSize, maxPageSize] at room largest
  have lists : listsItems (Page.byteAt (writer.hashPage own places).toArray 25) = true := by
    rw [byteAt_of_slice (Writer.slice_hashPage_type own room)]
    rfl
  have count : file.short (writer.hashPage own places).toArray 20 = places.length * 2 :=
    short_of_slice (order ▸ Writer.slice_hashPage_entries own room) (by omega)
  have even : places.length * 2 % 2 = 0 := by omega
  have half : places.length * 2 / 2 = places.length := by omega
  have slots : ¬ file.pageSize < pageHeaderSize + places.length * 2 * 2 := by omega
  have each : (List.range places.length).mapM (fun pair =>
      file.slotValue? number (writer.hashPage own places).toArray (2 * pair + 1)) =
      .ok (values.map some) := by
    rw [mapM_eq_ok_iff, List.forall₂_map_right_iff, List.forall₂_iff_get]
    refine ⟨by rw [List.length_range, read.length_eq], ?_⟩
    intro pair inRange inside
    rw [List.length_range] at inRange
    obtain ⟨firstFits, lengthFits, chain⟩ := read.get inRange inside
    rw [List.get_eq_getElem, List.getElem_range]
    exact slotValue?_of_listsAt order pageSize largest
      (Writer.listsAt_hashPage own room (List.getElem?_eq_getElem inRange))
      (by simp only [Writer.pairSize]; omega) firstFits lengthFits chain
  simp only [pageValues, found, ok_bind, lists, Bool.not_true, Bool.false_eq_true, if_false, count,
    even, ne_eq, not_true_eq_false, if_neg slots, half, each, List.filterMap_map,
    Function.id_comp, List.filterMap_some]
  rfl

end Reading

end ImageAudit.Rpm.HashFile
