import ImageAudit.Proofs.Bytes
import ImageAudit.Rpm.HashFile.Writer
import Mathlib.Data.List.Induction

/-! # Fields written over a page

A field written over a page is found at its place, and nothing apart from it changes. The header of
a page keeps the next page, the number of entries, the end of the free space and the type; what
follows the header stays as it was.
-/

namespace ImageAudit.Rpm.HashFile

open Bytes (slice)

namespace Writer

variable (writer : Writer)

@[simp] theorem length_short (value : Nat) : (writer.short value).length = 2 :=
  Bytes.length_ofNatIn ..

@[simp] theorem length_word (value : Nat) : (writer.word value).length = 4 :=
  Bytes.length_ofNatIn ..

section Overwrite

variable {page field : Bytes} {place : Nat} (inside : place + field.length ≤ page.length)
include inside

theorem length_overwrite : (overwrite page place field).length = page.length := by
  simp only [overwrite, List.length_append, List.length_take, List.length_drop]
  omega

/-- What lies apart from the field is as before. -/
theorem slice_overwrite_apart {offset length : Nat}
    (apart : offset + length ≤ place ∨ place + field.length ≤ offset) :
    slice (overwrite page place field) offset length = slice page offset length := by
  have before : (page.take place).length = place := List.length_take_of_le (by omega)
  rcases apart with ahead | behind
  · rw [overwrite, List.append_assoc, Bytes.slice_append_left _ (by rw [before]; exact ahead),
      slice, slice, List.drop_take, List.take_take, Nat.min_eq_left (by omega)]
  · rw [overwrite, Bytes.slice_append_right _ (offset - (place + field.length)) _
      (by rw [List.length_append, before]; omega), slice, slice, List.drop_drop,
      Nat.add_sub_cancel' behind]

/-- Inside the field its own bytes are read. -/
theorem slice_overwrite_within {offset length : Nat} (from' : place ≤ offset)
    (upTo : offset + length ≤ place + field.length) :
    slice (overwrite page place field) offset length = slice field (offset - place) length := by
  have before : (page.take place).length = place := List.length_take_of_le (by omega)
  rw [overwrite, List.append_assoc,
    Bytes.slice_append_right _ (offset - place) _ (by rw [before]; omega),
    Bytes.slice_append_left _ (by omega)]

end Overwrite

section OverwriteAll

/-- The page with fields written over it one after the other, each at its place. -/
def overwriteAll (page : Bytes) (fields : List (Nat × Bytes)) : Bytes :=
  fields.foldl (fun page field => overwrite page field.1 field.2) page

/-- All the fields lie inside a page. -/
def FitIn (page : Bytes) (fields : List (Nat × Bytes)) : Prop :=
  ∀ field ∈ fields, field.1 + field.2.length ≤ page.length

/-- None of the fields touches the bytes from `offset` on. -/
def ApartFrom (offset length : Nat) (fields : List (Nat × Bytes)) : Prop :=
  ∀ field ∈ fields, offset + length ≤ field.1 ∨ field.1 + field.2.length ≤ offset

theorem length_overwriteAll {page : Bytes} {fields : List (Nat × Bytes)} (fit : FitIn page fields) :
    (overwriteAll page fields).length = page.length := by
  induction fields using List.reverseRecOn with
  | nil => rfl
  | append_singleton fields field ih =>
    have before := ih fun field member => fit field (List.mem_append_left _ member)
    have last := fit field (List.mem_append_right _ (List.mem_singleton_self _))
    rw [overwriteAll, List.foldl_concat, length_overwrite]
    · exact before
    · exact before ▸ last

/-- What lies apart from all fields is as before. -/
theorem slice_overwriteAll_apart {page : Bytes} {fields : List (Nat × Bytes)}
    (fit : FitIn page fields) {offset length : Nat} (apart : ApartFrom offset length fields) :
    slice (overwriteAll page fields) offset length = slice page offset length := by
  induction fields using List.reverseRecOn with
  | nil => rfl
  | append_singleton fields field ih =>
    have fit' : FitIn page fields := fun field member => fit field (List.mem_append_left _ member)
    have last := fit field (List.mem_append_right _ (List.mem_singleton_self _))
    rw [overwriteAll, List.foldl_concat, slice_overwrite_apart]
    · exact ih fit' fun field member => apart field (List.mem_append_left _ member)
    · exact length_overwriteAll fit' ▸ last
    · exact apart field (List.mem_append_right _ (List.mem_singleton_self _))

/-- Inside a field that no later one touches its own bytes are read. -/
theorem slice_overwriteAll_within {page : Bytes} (fields later : List (Nat × Bytes)) (place : Nat)
    {field : Bytes} (fit : FitIn page (fields ++ (place, field) :: later)) {offset length : Nat}
    (from' : place ≤ offset) (upTo : offset + length ≤ place + field.length)
    (apart : ApartFrom offset length later) :
    slice (overwriteAll page (fields ++ (place, field) :: later)) offset length =
      slice field (offset - place) length := by
  have before : FitIn page fields := fun field member => fit field (List.mem_append_left _ member)
  have own := fit _ (List.mem_append_right _ (List.mem_cons_self ..))
  rw [← length_overwriteAll before] at own
  have behind : FitIn (overwrite (overwriteAll page fields) place field) later := by
    intro field member
    rw [length_overwrite own, length_overwriteAll before]
    exact fit field (List.mem_append_right _ (List.mem_cons_of_mem _ member))
  rw [overwriteAll, List.foldl_append, List.foldl_cons]
  exact (slice_overwriteAll_apart behind apart).trans (slice_overwrite_within own from' upTo)

/-- A field that no later one touches is read at its place. -/
theorem slice_overwriteAll_self {page : Bytes} (fields later : List (Nat × Bytes)) {place : Nat}
    {field : Bytes} (fit : FitIn page (fields ++ (place, field) :: later)) {length : Nat}
    (size : field.length = length) (apart : ApartFrom place length later) :
    slice (overwriteAll page (fields ++ (place, field) :: later)) place length = field := by
  rw [slice_overwriteAll_within _ _ _ fit (Nat.le_refl _) (by omega) apart, Nat.sub_self,
    Bytes.slice_self size]

end OverwriteAll

section PageHeader

variable (number previous next entries free type : Nat) {page : Bytes}
  (room : pageHeaderSize ≤ page.length)

private theorem length_headerFields :
    (writer.word number ++ writer.word previous ++ writer.word next ++ writer.short entries ++
      writer.short free ++ [0, UInt8.ofNat type]).length = 18 := by
  simp

include room

private theorem headerFields_inside :
    8 + (writer.word number ++ writer.word previous ++ writer.word next ++ writer.short entries ++
      writer.short free ++ [0, UInt8.ofNat type]).length ≤ page.length := by
  rw [length_headerFields]
  exact room

theorem length_withPageHeader :
    (writer.withPageHeader number previous next entries free type page).length = page.length :=
  length_overwrite (headerFields_inside writer number previous next entries free type room)

theorem slice_withPageHeader_behind {offset : Nat} (behind : pageHeaderSize ≤ offset)
    (length : Nat) :
    slice (writer.withPageHeader number previous next entries free type page) offset length =
      slice page offset length := by
  refine slice_overwrite_apart
    (headerFields_inside writer number previous next entries free type room) (.inr ?_)
  rw [length_headerFields]
  exact behind

/-- A field of the header is found at its place among the others. -/
private theorem slice_withPageHeader_field (place : Nat) {length : Nat}
    (inside : place + length ≤ 18) :
    slice (writer.withPageHeader number previous next entries free type page) (8 + place) length =
      slice (writer.word number ++ (writer.word previous ++ (writer.word next ++
        (writer.short entries ++ (writer.short free ++ [0, UInt8.ofNat type]))))) place length := by
  have inside' : 8 + place + length ≤ 8 + 18 := by omega
  have within := slice_overwrite_within
    (headerFields_inside writer number previous next entries free type room)
    (Nat.le_add_right 8 place) (by rw [length_headerFields]; exact inside')
  rw [withPageHeader, within, Nat.add_sub_cancel_left]
  simp only [List.append_assoc]

theorem slice_withPageHeader_next :
    slice (writer.withPageHeader number previous next entries free type page) 16 4 =
      writer.word next := by
  rw [slice_withPageHeader_field writer _ _ _ _ _ _ room 8 (by decide)]
  rw [Bytes.slice_append_right _ 4 _ (by simp),
    Bytes.slice_append_right _ 0 _ (by simp), Bytes.slice_zero _ (by simp)]

theorem slice_withPageHeader_entries :
    slice (writer.withPageHeader number previous next entries free type page) 20 2 =
      writer.short entries := by
  rw [slice_withPageHeader_field writer _ _ _ _ _ _ room 12 (by decide)]
  rw [Bytes.slice_append_right _ 8 _ (by simp),
    Bytes.slice_append_right _ 4 _ (by simp),
    Bytes.slice_append_right _ 0 _ (by simp), Bytes.slice_zero _ (by simp)]

theorem slice_withPageHeader_free :
    slice (writer.withPageHeader number previous next entries free type page) 22 2 =
      writer.short free := by
  rw [slice_withPageHeader_field writer _ _ _ _ _ _ room 14 (by decide)]
  rw [Bytes.slice_append_right _ 10 _ (by simp),
    Bytes.slice_append_right _ 6 _ (by simp),
    Bytes.slice_append_right _ 2 _ (by simp),
    Bytes.slice_append_right _ 0 _ (by simp), Bytes.slice_zero _ (by simp)]

theorem slice_withPageHeader_type :
    slice (writer.withPageHeader number previous next entries free type page) 25 1 =
      [UInt8.ofNat type] := by
  rw [slice_withPageHeader_field writer _ _ _ _ _ _ room 17 (by decide)]
  rw [Bytes.slice_append_right _ 13 _ (by simp),
    Bytes.slice_append_right _ 9 _ (by simp),
    Bytes.slice_append_right _ 5 _ (by simp),
    Bytes.slice_append_right _ 3 _ (by simp),
    Bytes.slice_append_right _ 1 _ (by simp)]
  rfl

end PageHeader

end Writer

section Reading

theorem slice_toArray (data : Bytes) (offset length : Nat) :
    Page.slice data.toArray offset length = slice data offset length := by
  rw [Page.slice, Array.toList_extract, List.extract_eq_take_drop, Nat.add_sub_cancel_left]
  rfl

theorem byteAt_of_slice {data : Bytes} {offset : Nat} {byte : UInt8}
    (stored : slice data offset 1 = [byte]) : Page.byteAt data.toArray offset = byte.toNat := by
  rw [Page.byteAt, Array.getD_eq_getD_getElem?, List.getElem?_toArray,
    Bytes.getElem?_of_slice stored, Option.getD_some]

variable {file : HashFile} {data : Bytes} {offset value : Nat}

theorem short_of_slice (stored : slice data offset 2 = Bytes.ofNatIn file.order 2 value)
    (fits : value < 65536) : file.short data.toArray offset = value := by
  rw [short, slice_toArray, stored, Bytes.natIn_ofNatIn _ fits]

theorem word_of_slice (stored : slice data offset 4 = Bytes.ofNatIn file.order 4 value)
    (fits : value < 0x100000000) : file.word data.toArray offset = value := by
  rw [word, slice_toArray, stored, Bytes.natIn_ofNatIn _ fits]

end Reading

end ImageAudit.Rpm.HashFile
