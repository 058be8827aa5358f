import ImageAudit.Proofs.Rpm.HashFile.Layout
import ImageAudit.Proofs.Rpm.HashFile.MetaPage

/-! # Values read back from a hash file

A hash file is parsed to the pages that were written, in the byte order and with the page size that
its first page names. Its hash pages yield the values they list and the pages of the chains none, so
the values are read back in their order.
-/

namespace ImageAudit.Rpm.HashFile

open Bytes (slice)
open Fallible

namespace Writer

/-- The form has room for the values: its pages have a size that may be, a hash page holds all that
it lists, and all numbers fit four bytes. -/
structure CanHold (writer : Writer) (values : List Bytes) : Prop where
  power : ∃ exponent, 9 ≤ exponent ∧ exponent ≤ 16 ∧ writer.pageSize = 2 ^ exponent
  room : pageHeaderSize + pairSize * min pairsPerPage values.length ≤ writer.pageSize
  lengthsFit : ∀ value ∈ values, value.length < 0x100000000
  lastPageFits : writer.lastPage values < 0xffffffff

def file (writer : Writer) (values : List Bytes) : HashFile where
  order := writer.order
  pageSize := writer.pageSize
  lastPage := writer.lastPage values
  pages := ((writer.pages values).map List.toArray).toArray

theorem page_file {writer : Writer} {values : List Bytes} {number : Nat} {page : Bytes}
    (found : (writer.pages values)[number]? = some page) :
    (writer.file values).page number = .ok page.toArray := by
  have inside := (List.getElem?_eq_some_iff.mp found).1
  rw [length_pages] at inside
  have noLater : ¬ (writer.file values).lastPage < number := by
    simp only [file]
    omega
  rw [HashFile.page, if_neg noLater, file, Array.getD_eq_getD_getElem?, List.getElem?_toArray,
    List.getElem?_map, found]
  rfl

section Sized

variable {writer : Writer} {values : List Bytes} (holds : writer.CanHold values)
include holds

theorem CanHold.isPageSize : isPageSize writer.pageSize = true := by
  obtain ⟨exponent, low, high, size⟩ := holds.power
  rw [size]
  exact isPageSize_two_pow low high

theorem CanHold.headerInside : pageHeaderSize < writer.pageSize := by
  have smallest := (le_of_isPageSize holds.isPageSize).1
  simp only [minPageSize, pageHeaderSize] at smallest ⊢
  omega

/-- Each hash page has room for what it lists. -/
theorem CanHold.roomFor {list : List (Nat × Nat × Nat)}
    (member : list ∈ perPage (writer.places values)) :
    pageHeaderSize + pairSize * list.length ≤ writer.pageSize := by
  have few := length_le_of_mem_perPage member
  rw [length_places] at few
  exact Nat.le_trans (Nat.add_le_add_left (Nat.mul_le_mul_left _ few) _) holds.room

/-- The pages of the chains are overflow pages with a part that fits. -/
theorem CanHold.exists_overflowPage {page : Bytes} {free : Nat}
    (member : page ∈ writer.chains free values) :
    ∃ number previous next part, page = writer.overflowPage number previous next part ∧
      pageHeaderSize + part.length ≤ writer.pageSize := by
  obtain ⟨⟨first, value⟩, _, member⟩ := List.mem_flatMap.mp member
  obtain ⟨⟨part, index⟩, listed, rfl⟩ := List.mem_map.mp member
  have fits := (writer.cut_parts holds.headerInside value).1.length_le
    (List.fst_mem_of_mem_zipIdx listed)
  have room := holds.headerInside
  simp only [pageCapacity] at fits
  exact ⟨_, _, _, part, rfl, by omega⟩

theorem CanHold.sizes :
    ∀ page ∈ writer.hashPages values ++ writer.chains (1 + hashPageCount values) values,
      page.length = writer.pageSize := by
  intro page member
  rcases List.mem_append.mp member with member | member
  · obtain ⟨⟨list, index⟩, listed, rfl⟩ := List.mem_map.mp member
    exact length_hashPage _ (holds.roomFor (List.fst_mem_of_mem_zipIdx listed))
  · obtain ⟨number, previous, next, part, rfl, fits⟩ := holds.exists_overflowPage member
    exact length_overflowPage number previous next fits

/-- What is written is parsed to the pages that were written. -/
theorem CanHold.parse_encode : parse (writer.encode values) = .ok (writer.file values) := by
  have count := writer.length_pages values
  rw [pages, List.length_cons] at count
  have last := holds.lastPageFits
  rw [encode_eq, pages]
  exact parse_flatten holds.isPageSize holds.sizes (Nat.succ.inj count) (by omega)

section Chain

variable {position first : Nat} {value : Bytes}
  (start : (writer.chainStarts (1 + hashPageCount values) values).1[position]? = some first)
  (present : values[position]? = some value)
include start present

/-- The chain lies behind the first page and ends inside the file. -/
theorem CanHold.chain_inside :
    0 < first ∧ first + (writer.parts value).length ≤ writer.lastPage values + 1 := by
  obtain ⟨positive, stands⟩ := writer.chain_prefix_pages values start present
  have inside := stands.length_le
  rw [length_chain, List.length_drop, length_pages] at inside
  have someParts := List.length_pos_iff.mpr (writer.cut_parts holds.headerInside value).1.ne_nil
  exact ⟨positive, by omega⟩

private theorem CanHold.holdsPart {index : Nat} {part : Bytes}
    (found : (writer.parts value)[index]? = some part)
    (full : index + 1 ≠ (writer.parts value).length → part.length = writer.pageCapacity) :
    (writer.file values).HoldsPart (first + index)
      (if index + 1 = (writer.parts value).length then 0 else first + index + 1) part := by
  obtain ⟨-, stands⟩ := writer.chain_prefix_pages values start present
  obtain ⟨-, inside⟩ := holds.chain_inside start present
  obtain ⟨previous, chained⟩ := writer.getElem?_chain first found
  have room := holds.headerInside
  have last := holds.lastPageFits
  have fits := (writer.cut_parts room value).1.length_le (List.mem_of_getElem? found)
  have place := (List.getElem?_eq_some_iff.mp found).1
  have listed : (writer.pages values)[first + index]? =
      some (writer.overflowPage (first + index) previous
        (if index + 1 = (writer.parts value).length then 0 else first + index + 1) part) := by
    obtain ⟨rest, stands⟩ := stands
    rw [← List.getElem?_drop, ← stands,
      List.getElem?_append_left (List.getElem?_eq_some_iff.mp chained).1, chained]
  refine holdsPart_of_overflowPage rfl rfl (le_of_isPageSize holds.isPageSize).2
    (page_file listed) ?_ ?_ ?_
  · simp only [pageCapacity] at fits
    omega
  · split <;> omega
  · intro more
    exact full fun ends => more (if_pos ends)

theorem CanHold.holdsChain : (writer.file values).HoldsChain first (writer.parts value) := by
  -- Induction on the parts that are left, behind those whose pages come before.
  have behind (rest : List Bytes) (cut : Cut writer.pageCapacity rest) :
      ∀ done, writer.parts value = done ++ rest →
        (writer.file values).HoldsChain (first + done.length) rest := by
    induction cut with
    | @last part fits =>
      intro done parts
      have found : (writer.parts value)[done.length]? = some part := by simp [parts]
      have ends : done.length + 1 = (writer.parts value).length := by simp [parts]
      have part := holds.holdsPart start present found fun more => absurd ends more
      rw [if_pos ends] at part
      exact .last part
    | @cons part rest full more ih =>
      intro done parts
      have found : (writer.parts value)[done.length]? = some part := by simp [parts]
      have goesOn : done.length + 1 ≠ (writer.parts value).length := by
        have := List.length_pos_iff.mpr more.ne_nil
        rw [parts, List.length_append, List.length_cons]
        omega
      have part := holds.holdsPart start present found fun _ => full
      rw [if_neg goesOn] at part
      have others := ih (done ++ [_]) (by rw [parts, List.append_assoc, List.singleton_append])
      rw [List.length_append, List.length_singleton] at others
      exact .cons part others
  exact behind _ (writer.cut_parts holds.headerInside value).1 [] rfl

/-- The value whose place is listed is read from its chain. -/
theorem CanHold.chainValue :
    (writer.file values).chainValue first value.length = .ok value := by
  obtain ⟨positive, inside⟩ := holds.chain_inside start present
  have whole := (writer.cut_parts holds.headerInside value).2
  have enough : (writer.parts value).length ≤ (writer.file values).lastPage := by
    simp only [file]
    omega
  have read := (holds.holdsChain start present).chainValue (Nat.pos_iff_ne_zero.mp positive) enough
  rw [whole] at read
  exact read

end Chain

/-- Every value is read from the place that is listed for it. -/
theorem CanHold.forall₂_places :
    List.Forall₂ (fun place value => place.2.1 < 0x100000000 ∧ place.2.2 < 0x100000000 ∧
      (writer.file values).chainValue place.2.1 place.2.2 = .ok value)
      (writer.places values) values := by
  rw [List.forall₂_iff_get]
  refine ⟨writer.length_places values, ?_⟩
  intro position _ inside
  have started : position < (writer.chainStarts (1 + hashPageCount values) values).1.length := by
    rw [length_starts]
    exact inside
  have start := List.getElem?_eq_getElem started
  have present := List.getElem?_eq_getElem inside
  have last := holds.lastPageFits
  obtain ⟨-, before⟩ := holds.chain_inside start present
  have someParts := List.length_pos_iff.mpr
    (writer.cut_parts holds.headerInside values[position]).1.ne_nil
  simp only [List.get_eq_getElem, places, List.getElem_map, List.getElem_zipIdx, List.getElem_zip]
  exact ⟨by omega, holds.lengthsFit _ (List.getElem_mem inside), holds.chainValue start present⟩

omit holds in
/-- The pages of the chains list nothing. -/
theorem pageValues_of_overflowPage {index number previous next : Nat} {part : Bytes}
    (fits : pageHeaderSize + part.length ≤ writer.pageSize)
    (found : (writer.pages values)[index]? =
      some (writer.overflowPage number previous next part)) :
    (writer.file values).pageValues index = .ok [] := by
  have type := byteAt_of_slice (slice_overflowPage_type number previous next fits)
  have listsNone : listsItems (UInt8.ofNat overflowPageType).toNat = false := rfl
  simp only [pageValues, page_file found, ok_bind, type, listsNone, Bool.not_false, if_true]
  rfl

/-- A hash page yields the values that it lists. -/
theorem CanHold.forall₂_hashPages :
    List.Forall₂ (fun index found => (writer.file values).pageValues (index + 1) = .ok found)
      (List.range (perPage values).length) (perPage values) := by
  have listed := forall₂_perPage holds.forall₂_places
  rw [List.forall₂_iff_get]
  refine ⟨List.length_range, ?_⟩
  intro index _ inside
  have inside' : index < (perPage (writer.places values)).length := listed.length_eq ▸ inside
  rw [List.get_eq_getElem, List.getElem_range]
  exact pageValues_of_hashPage rfl rfl (le_of_isPageSize holds.isPageSize).2
    (page_file (writer.getElem?_pages_hash values (List.getElem?_eq_getElem inside')))
    (holds.roomFor (List.getElem_mem inside')) (listed.get inside' inside)

/-- The pages behind the hash pages yield nothing. -/
theorem CanHold.forall₂_chains :
    List.Forall₂ (fun index found => (writer.file values).pageValues (index + 1) = .ok found)
      ((List.range (writer.chains (1 + hashPageCount values) values).length).map
        (hashPageCount values + ·))
      (List.replicate (writer.chains (1 + hashPageCount values) values).length []) := by
  rw [List.forall₂_map_left_iff, List.forall₂_iff_get]
  refine ⟨by rw [List.length_range, List.length_replicate], ?_⟩
  intro index inside _
  rw [List.length_range] at inside
  obtain ⟨number, previous, next, part, written, fits⟩ :=
    holds.exists_overflowPage (List.getElem_mem inside)
  have found : (writer.pages values)[hashPageCount values + index + 1]? =
      some (writer.overflowPage number previous next part) := by
    have before := writer.length_hashPages values
    rw [pages, List.getElem?_cons_succ, List.getElem?_append_right (by omega), before,
      Nat.add_sub_cancel_left, List.getElem?_eq_getElem inside, written]
  rw [List.get_eq_getElem, List.getElem_range, List.get_eq_getElem, List.getElem_replicate]
  exact pageValues_of_overflowPage fits found

/-- The pages behind the first yield the values in order: those listed on the hash pages, then
nothing more. -/
theorem CanHold.values_file : (writer.file values).values = .ok values := by
  have last : (writer.file values).lastPage =
      (perPage values).length + (writer.chains (1 + hashPageCount values) values).length := by
    rw [length_perPage, ← hashPageCount]
    simp only [file, lastPage, free_chainStarts]
    omega
  have first : (perPage values).length = hashPageCount values := length_perPage values
  have each : (List.range (writer.file values).lastPage).mapM (fun index =>
      (writer.file values).pageValues (index + 1)) = .ok (perPage values ++
        List.replicate (writer.chains (1 + hashPageCount values) values).length []) := by
    rw [mapM_eq_ok_iff, last, List.range_add]
    exact List.rel_append holds.forall₂_hashPages (first ▸ holds.forall₂_chains)
  rw [HashFile.values, each, ok_bind, List.flatten_append, flatten_perPage,
    List.flatten_replicate_nil, List.append_nil]
  rfl

/-- The values are read back as they were written. -/
theorem CanHold.readValues_encode : readValues (writer.encode values) = .ok values := by
  rw [readValues, holds.parse_encode, ok_bind, holds.values_file]

end Sized

end Writer

end ImageAudit.Rpm.HashFile
