import ImageAudit.Proofs.Rpm.HashFile.Chain
import ImageAudit.Proofs.Rpm.HashFile.Listing

/-! # The pages of a hash file

A hash file is its first page, the hash pages and the chains of all values, each page of one size.
The chain of a value begins at the page that is listed for it, and the hash pages together list all
values in order.
-/

namespace ImageAudit.Rpm.HashFile.Writer

open Bytes (slice)

section Groups

variable {α β : Type} {size : Nat}

private theorem groups_succ (fuel : Nat) {items : List α} (someItems : items ≠ []) :
    groups size (fuel + 1) items = items.take size :: groups size fuel (items.drop size) := by
  cases items with
  | nil => exact absurd rfl someItems
  | cons item items => rfl

private theorem groups_nil (fuel : Nat) : groups size fuel ([] : List α) = [] := by
  cases fuel <;> rfl

section Enough

variable (positive : 0 < size) {fuel : Nat} {items : List α} (enough : items.length ≤ fuel)
include positive enough

/-- No item is lost, and none changes its place. -/
theorem flatten_groups : (groups size fuel items).flatten = items := by
  induction fuel generalizing items with
  | zero => rw [List.eq_nil_of_length_eq_zero (Nat.le_zero.mp enough)]; rfl
  | succ fuel ih =>
    by_cases empty : items = []
    · rw [empty, groups_nil, List.flatten_nil]
    · have rest : (items.drop size).length ≤ fuel := by
        rw [List.length_drop]
        omega
      rw [groups_succ fuel empty, List.flatten_cons, ih rest, List.take_append_drop]

theorem length_groups : (groups size fuel items).length = (items.length + size - 1) / size := by
  induction fuel generalizing items with
  | zero =>
    rw [Nat.le_zero.mp enough, Nat.zero_add, Nat.div_eq_of_lt (Nat.sub_lt positive Nat.one_pos)]
    rfl
  | succ fuel ih =>
    by_cases empty : items = []
    · rw [empty, groups_nil, List.length_nil, List.length_nil, Nat.zero_add,
        Nat.div_eq_of_lt (Nat.sub_lt positive Nat.one_pos)]
    · have someItems : 0 < items.length := List.length_pos_iff.mpr empty
      have rest : (items.drop size).length ≤ fuel := by
        rw [List.length_drop]
        omega
      rw [groups_succ fuel empty, List.length_cons, ih rest, List.length_drop]
      by_cases more : size ≤ items.length
      · have step : items.length + size - 1 = items.length - size + size - 1 + size := by omega
        rw [step, Nat.add_div_right _ positive]
      · have none : items.length - size + size - 1 = size - 1 := by omega
        have one : items.length + size - 1 = items.length - 1 + size := by omega
        rw [none, one, Nat.add_div_right _ positive,
          Nat.div_eq_of_lt (Nat.sub_lt positive Nat.one_pos), Nat.div_eq_of_lt (by omega)]

end Enough

theorem length_le_of_mem_groups {fuel : Nat} {items group : List α}
    (member : group ∈ groups size fuel items) :
    group.length ≤ size ∧ group.length ≤ items.length := by
  induction fuel generalizing items with
  | zero => cases member
  | succ fuel ih =>
    by_cases empty : items = []
    · rw [empty, groups_nil] at member
      cases member
    · rw [groups_succ fuel empty] at member
      rcases List.mem_cons.mp member with rfl | member
      · rw [List.length_take]
        omega
      · have := ih member
        rw [List.length_drop] at this
        omega

/-- Items that correspond are grouped alike. -/
theorem forall₂_groups {R : α → β → Prop} {items : List α} {others : List β}
    (related : List.Forall₂ R items others) (fuel : Nat) :
    List.Forall₂ (List.Forall₂ R) (groups size fuel items) (groups size fuel others) := by
  induction fuel generalizing items others with
  | zero => exact .nil
  | succ fuel ih =>
    cases related with
    | nil => exact .nil
    | cons item related =>
      have all := List.Forall₂.cons item related
      exact .cons (List.forall₂_take size all) (ih (List.forall₂_drop size all))

end Groups

section Chains

variable (writer : Writer)

/-- The pages of all chains, in the order of the values. -/
def chains (free : Nat) (values : List Bytes) : List Bytes :=
  ((writer.chainStarts free values).1.zip values).flatMap fun (first, value) =>
    writer.chain first value

theorem length_chain (first : Nat) (value : Bytes) :
    (writer.chain first value).length = (writer.parts value).length := by
  rw [chain, List.length_map, List.length_zipIdx]

theorem chainStarts_cons (free : Nat) (value : Bytes) (values : List Bytes) :
    writer.chainStarts free (value :: values) =
      (free :: (writer.chainStarts (free + (writer.parts value).length) values).1,
        (writer.chainStarts (free + (writer.parts value).length) values).2) := rfl

theorem chains_cons (free : Nat) (value : Bytes) (values : List Bytes) :
    writer.chains free (value :: values) =
      writer.chain free value ++
        writer.chains (free + (writer.parts value).length) values := by
  rw [chains, chainStarts_cons, List.zip_cons_cons, List.flatMap_cons]
  rfl

theorem length_starts (free : Nat) (values : List Bytes) :
    (writer.chainStarts free values).1.length = values.length := by
  induction values generalizing free with
  | nil => rfl
  | cons value values ih => rw [chainStarts_cons, List.length_cons, List.length_cons, ih]

/-- The page after the last chain. -/
theorem free_chainStarts (free : Nat) (values : List Bytes) :
    (writer.chainStarts free values).2 = free + (writer.chains free values).length := by
  induction values generalizing free with
  | nil => rfl
  | cons value values ih =>
    rw [chainStarts_cons, ih, chains_cons, List.length_append, length_chain, Nat.add_assoc]

/-- Each chain stands where it is listed, behind the pages that come before all chains. -/
theorem chain_prefix {before : List Bytes} {values : List Bytes} {position first : Nat}
    {value : Bytes} (start : (writer.chainStarts before.length values).1[position]? = some first)
    (present : values[position]? = some value) :
    before.length ≤ first ∧
      writer.chain first value <+: (before ++ writer.chains before.length values).drop first := by
  induction values generalizing before position with
  | nil => simp at present
  | cons value' values ih =>
    rw [chainStarts_cons] at start
    rw [chains_cons]
    cases position with
    | zero =>
      rw [List.getElem?_cons_zero] at start present
      cases start
      cases present
      rw [List.drop_left]
      exact ⟨Nat.le_refl _, List.prefix_append ..⟩
    | succ position =>
      rw [List.getElem?_cons_succ] at start present
      have size : (before ++ writer.chain before.length value').length =
          before.length + (writer.parts value').length := by
        rw [List.length_append, length_chain]
      rw [← size] at start ⊢
      obtain ⟨behind, stands⟩ := ih start present
      rw [← List.append_assoc]
      exact ⟨by omega, stands⟩

end Chains

section Pages

variable (writer : Writer) (values : List Bytes)

def hashPageCount : Nat := max 1 ((values.length + pairsPerPage - 1) / pairsPerPage)

/-- The places of the values: the position, the first page and the length of each. -/
def places : List (Nat × Nat × Nat) :=
  ((writer.chainStarts (1 + hashPageCount values) values).1.zip
    (values.map List.length)).zipIdx.map fun ((first, length), position) =>
      (position, first, length)

/-- The items of each hash page; one page lists none where there are none. -/
def perPage {α : Type} (items : List α) : List (List α) :=
  match groups pairsPerPage items.length items with
  | [] => [[]]
  | lists => lists

def hashPages : List Bytes :=
  (perPage (writer.places values)).zipIdx.map fun (list, index) => writer.hashPage (1 + index) list

def lastPage : Nat := (writer.chainStarts (1 + hashPageCount values) values).2 - 1

def pages : List Bytes :=
  writer.metaPage (writer.lastPage values) values.length ::
    (writer.hashPages values ++ writer.chains (1 + hashPageCount values) values)

theorem length_places : (writer.places values).length = values.length := by
  rw [places, List.length_map, List.length_zipIdx, List.length_zip, length_starts, List.length_map,
    Nat.min_self]

private theorem flatten_hashPages : (writer.hashPages values).flatten =
    (match groups pairsPerPage values.length (writer.places values) with
      | [] => [[]]
      | lists => lists).zipIdx.flatMap fun (list, index) => writer.hashPage (1 + index) list := by
  rw [hashPages, perPage, length_places, List.flatMap_def]
  cases groups pairsPerPage values.length (writer.places values) <;> rfl

private theorem flatten_chains : (writer.chains (1 + hashPageCount values) values).flatten =
    ((writer.chainStarts (1 + hashPageCount values) values).1.zip values).flatMap
      fun (first, value) => (writer.chain first value).flatten := by
  rw [chains, List.flatMap_def, List.flatten_flatten, List.map_map, List.flatMap_def]
  rfl

theorem encode_eq : writer.encode values = (writer.pages values).flatten := by
  rw [pages, List.flatten_cons, List.flatten_append, flatten_hashPages, flatten_chains,
    ← List.append_assoc]
  rfl

end Pages

section PerPage

variable {α β : Type}

theorem flatten_perPage (items : List α) : (perPage items).flatten = items := by
  have all : (groups pairsPerPage items.length items).flatten = items :=
    flatten_groups (by decide) (Nat.le_refl _)
  unfold perPage
  split
  case h_1 none => rw [← all, none]; rfl
  case h_2 => exact all

theorem length_perPage (items : List α) :
    (perPage items).length = max 1 ((items.length + pairsPerPage - 1) / pairsPerPage) := by
  have count : (groups pairsPerPage items.length items).length =
      (items.length + pairsPerPage - 1) / pairsPerPage :=
    length_groups (by decide) (Nat.le_refl _)
  unfold perPage
  split
  case h_1 none =>
    rw [none, List.length_nil] at count
    rw [← count]
    rfl
  case h_2 someLists =>
    have positive := List.length_pos_iff.mpr someLists
    rw [count] at positive ⊢
    omega

theorem length_le_of_mem_perPage {items list : List α} (member : list ∈ perPage items) :
    list.length ≤ min pairsPerPage items.length := by
  unfold perPage at member
  split at member
  case h_1 =>
    rw [List.mem_singleton.mp member]
    exact Nat.zero_le _
  case h_2 =>
    obtain ⟨few, inside⟩ := length_le_of_mem_groups member
    omega

theorem forall₂_perPage {R : α → β → Prop} {items : List α} {others : List β}
    (related : List.Forall₂ R items others) :
    List.Forall₂ (List.Forall₂ R) (perPage items) (perPage others) := by
  have alike : List.Forall₂ (List.Forall₂ R) (groups pairsPerPage items.length items)
      (groups pairsPerPage items.length others) := forall₂_groups related _
  unfold perPage
  rw [← related.length_eq]
  cases lists : groups pairsPerPage items.length items with
  | nil =>
    rw [lists, List.forall₂_nil_left_iff] at alike
    rw [alike]
    exact .cons .nil .nil
  | cons list lists' =>
    rw [lists] at alike
    cases others' : groups pairsPerPage items.length others with
    | nil =>
      rw [others'] at alike
      cases alike
    | cons other others'' =>
      rw [others'] at alike
      exact alike

end PerPage

section Counting

variable (writer : Writer) (values : List Bytes)

theorem length_hashPages : (writer.hashPages values).length = hashPageCount values := by
  rw [hashPages, List.length_map, List.length_zipIdx, length_perPage, length_places, hashPageCount]

theorem length_pages : (writer.pages values).length = writer.lastPage values + 1 := by
  rw [pages, List.length_cons, List.length_append, length_hashPages, lastPage, free_chainStarts]
  omega

theorem getElem?_pages_hash {index : Nat} {list : List (Nat × Nat × Nat)}
    (found : (perPage (writer.places values))[index]? = some list) :
    (writer.pages values)[index + 1]? = some (writer.hashPage (1 + index) list) := by
  have listed : (writer.hashPages values)[index]? = some (writer.hashPage (1 + index) list) := by
    rw [hashPages, List.getElem?_map, List.getElem?_zipIdx, found, Nat.zero_add]
    rfl
  rw [pages, List.getElem?_cons_succ,
    List.getElem?_append_left (List.getElem?_eq_some_iff.mp listed).1, listed]

/-- The chain of each value stands in the file where it is listed. -/
theorem chain_prefix_pages {position first : Nat} {value : Bytes}
    (start : (writer.chainStarts (1 + hashPageCount values) values).1[position]? = some first)
    (present : values[position]? = some value) :
    0 < first ∧ writer.chain first value <+: (writer.pages values).drop first := by
  have before : (writer.metaPage (writer.lastPage values) values.length ::
      writer.hashPages values).length = 1 + hashPageCount values := by
    rw [List.length_cons, length_hashPages, Nat.add_comm]
  rw [← before] at start
  obtain ⟨behind, stands⟩ := writer.chain_prefix start present
  rw [before] at behind stands
  exact ⟨by omega, stands⟩

theorem getElem?_chain (first : Nat) {value : Bytes} {index : Nat} {part : Bytes}
    (found : (writer.parts value)[index]? = some part) :
    ∃ previous, (writer.chain first value)[index]? =
      some (writer.overflowPage (first + index) previous
        (if index + 1 = (writer.parts value).length then 0 else first + index + 1) part) := by
  refine ⟨if index = 0 then 0 else first + index - 1, ?_⟩
  rw [chain, List.getElem?_map, List.getElem?_zipIdx, found, Nat.zero_add]
  rfl

end Counting

end ImageAudit.Rpm.HashFile.Writer
