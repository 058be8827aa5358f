import ImageAudit.Proofs.Rpm.HashFile.MetaPage
import ImageAudit.Proofs.Rpm.HashFile.Trail

/-! # Values of chains

A slot of a hash page gives the first page of a chain and the length of a value. The value is read
exactly when the chain ends at page zero, its last page has room for what it uses, and its pages
hold as many bytes as the value has; it is then the first of these bytes. The chain is said to loop
exactly when it comes back to a page, whatever the limit on its pages. A chain that comes to a page
beyond the last, or to one of another type, is reported as such.
-/

namespace ImageAudit.Rpm.HashFile

open Fallible

/-- Where the item of a slot lies on its page. -/
def itemAt (file : HashFile) (number slot : Nat) : Nat :=
  file.short (file.pageAt number) (pageHeaderSize + slot * 2)

/-- A page behind the first lists whole pairs of keys and values, whose slots lie inside it. -/
@[mk_iff]
structure ListsPairs (file : HashFile) (number : Nat) : Prop where
  positive : 0 < number
  inside : number ≤ file.lastPage
  lists : listsItems ((file.pageAt number).byteAt 25) = true
  even : file.short (file.pageAt number) 20 % 2 = 0
  index : pageHeaderSize + file.short (file.pageAt number) 20 * 2 ≤ file.pageSize

/-- A slot for values on such a page gives the first page of a chain and the length of the value
there. -/
@[mk_iff]
structure Places (file : HashFile) (number slot first length : Nat) : Prop
    extends file.ListsPairs number where
  odd : slot % 2 = 1
  listed : slot < file.short (file.pageAt number) 20
  item : file.itemAt number slot + placeSize ≤ file.pageSize
  type : (file.pageAt number).byteAt (file.itemAt number slot) = placeItemType
  firstAt : file.word (file.pageAt number) (file.itemAt number slot + 4) = first
  lengthAt : file.word (file.pageAt number) (file.itemAt number slot + 8) = length

instance (file : HashFile) (number : Nat) : Decidable (file.ListsPairs number) :=
  decidable_of_iff _ (file.listsPairs_iff number).symm

instance (file : HashFile) (number slot first length : Nat) :
    Decidable (file.Places number slot first length) :=
  decidable_of_iff _ (file.places_iff number slot first length).symm

variable {file : HashFile} {number slot first length : Nat}

/-- A listed value is read from its chain. -/
theorem Places.slotValue? (places : file.Places number slot first length) :
    file.slotValue? number (file.pageAt number) slot =
      (file.chainValue first length).map some := by
  have inside := places.item
  have reaches : ¬ file.pageSize ≤ file.itemAt number slot := by
    simp only [placeSize] at inside
    omega
  have whole : ¬ file.pageSize < file.itemAt number slot + placeSize := Nat.not_lt.mpr inside
  unfold itemAt at reaches whole
  have type := places.type
  have firstAt := places.firstAt
  have lengthAt := places.lengthAt
  unfold itemAt at type firstAt lengthAt
  simp only [HashFile.slotValue?, if_neg reaches, type, ne_eq, not_true_eq_false, if_false,
    if_neg whole, firstAt, lengthAt]
  cases file.chainValue _ _ <;> rfl

/-- The page that lists values is none of a chain. -/
theorem Places.noOverflow (places : file.Places number slot first length) :
    (file.pageAt number).byteAt 25 ≠ overflowPageType := by
  intro overflow
  have lists := places.lists
  rw [overflow] at lists
  cases lists

section Endings

variable {pages : List Nat} {last : Nat}

/-- The chain comes to an end before the limit, or it comes back to a page. -/
theorem Places.ends_or_revisits (places : file.Places number slot first length) :
    (∃ pages last, file.Trail first pages last ∧ file.Stops last ∧ pages.Nodup ∧
      pages.length < file.lastPage) ∨
    file.Revisits first ∧ ∃ pages last, file.Trail first pages last ∧ last ≠ 0 ∧
      pages.length = file.lastPage := by
  have short {pages : List Nat} {last : Nat} (trail : file.Trail first pages last)
      (distinct : pages.Nodup) : pages.length < file.lastPage :=
    trail.length_lt distinct places.positive places.inside places.noOverflow
  rcases exists_trail file file.lastPage first with
    ⟨pages, last, trail, stops, -⟩ | ⟨pages, last, trail, long⟩
  · exact .inl ⟨pages, last, trail, stops, trail.nodup stops, short trail (trail.nodup stops)⟩
  · rcases trail.nodup_or_revisits with distinct | revisits
    · have few := short trail distinct
      omega
    · refine .inr ⟨revisits, pages, last, trail, ?_, long⟩
      rintro rfl
      exact trail.not_revisits (stops_iff.mpr (.inl rfl)) revisits

/-- What is read of a chain decides what is made of it. -/
theorem chainValue_of_error {fault : Fault}
    (failed : file.followChain first file.lastPage first [] = .error fault) :
    file.chainValue first length = .error fault := by
  rw [chainValue, failed]
  rfl

theorem Places.chainValue_of_revisits (places : file.Places number slot first length)
    (revisits : file.Revisits first) :
    file.chainValue first length = .error (.chainLoops first) := by
  rcases places.ends_or_revisits with ⟨_, _, trail, stops, -, -⟩ | ⟨-, pages, last, trail, noEnd,
    long⟩
  · exact absurd revisits (trail.not_revisits stops)
  · have followed := trail.followChain first [] noEnd 0
    rw [long, Nat.zero_add, followChain_of_limit first _ noEnd] at followed
    exact chainValue_of_error followed

section Ends

variable (few : pages.length < file.lastPage)
include few

private theorem exists_hops : ∃ hops, file.lastPage = hops + 1 + pages.length :=
  ⟨file.lastPage - 1 - pages.length, by omega⟩

theorem chainValue_of_beyond (trail : file.Trail first pages last) (noEnd : last ≠ 0)
    (beyond : file.lastPage < last) :
    file.chainValue first length = .error (.beyondLastPage last file.lastPage) := by
  obtain ⟨hops, limit⟩ := exists_hops few
  refine chainValue_of_error ?_
  rw [limit, trail.followChain first [] noEnd, ← limit, followChain_of_beyond first _ noEnd beyond]

theorem chainValue_of_noOverflow (trail : file.Trail first pages last) (noEnd : last ≠ 0)
    (inside : last ≤ file.lastPage) (type : (file.pageAt last).byteAt 25 ≠ overflowPageType) :
    file.chainValue first length =
      .error (.notOverflow last ((file.pageAt last).byteAt 25)) := by
  obtain ⟨hops, limit⟩ := exists_hops few
  refine chainValue_of_error ?_
  rw [limit, trail.followChain first [] noEnd, followChain_of_noOverflow first _ noEnd inside type]

theorem chainValue_of_overrun (trail : file.Trail first pages 0) {page : Nat}
    (isLast : page ∈ pages.getLast?)
    (overruns : file.pageSize < pageHeaderSize + file.used page) :
    file.chainValue first length = .error (.overflowLength page) := by
  obtain ⟨hops, limit⟩ := exists_hops few
  refine chainValue_of_error ?_
  rw [limit, trail.followChain_of_overrun first [] isLast overruns]

theorem chainValue_of_fits (trail : file.Trail first pages 0)
    (fits : ∀ page ∈ pages.getLast?, pageHeaderSize + file.used page ≤ file.pageSize) :
    file.chainValue first length =
      if (file.contents pages).flatten.length < length then
        .error (.chainTooShort first (file.contents pages).flatten.length length)
      else .ok ((file.contents pages).flatten.take length) := by
  obtain ⟨hops, limit⟩ := exists_hops few
  rw [chainValue, limit, trail.followChain_of_fits first [] fits, List.reverse_nil,
    List.nil_append, ok_bind]
  dsimp only
  split <;> rfl

end Ends

/-- A chain that does not come back to a page is read or reported for another reason. -/
theorem Places.read_or_fault (places : file.Places number slot first length)
    (onward : ¬ file.Revisits first) :
    (∃ fault, file.chainValue first length = .error fault ∧ fault ≠ .chainLoops first) ∨
    ∃ pages, file.Trail first pages 0 ∧ pages.Nodup ∧
      (∀ page ∈ pages.getLast?, pageHeaderSize + file.used page ≤ file.pageSize) ∧
      length ≤ (file.contents pages).flatten.length ∧
      file.chainValue first length = .ok ((file.contents pages).flatten.take length) := by
  obtain ⟨pages, last, trail, stops, distinct, few⟩ :=
    places.ends_or_revisits.resolve_right fun loops => onward loops.1
  by_cases ends : last = 0
  · subst ends
    by_cases fits : ∀ page ∈ pages.getLast?, pageHeaderSize + file.used page ≤ file.pageSize
    · have read : file.chainValue first length = _ := chainValue_of_fits few trail fits
      split at read
      case isTrue short => exact .inl ⟨_, read, nofun⟩
      case isFalse enough =>
        exact .inr ⟨pages, trail, distinct, fits, Nat.not_lt.mp enough, read⟩
    · simp only [not_forall, Nat.not_le] at fits
      obtain ⟨page, isLast, overruns⟩ := fits
      exact .inl ⟨_, chainValue_of_overrun few trail isLast overruns, nofun⟩
  · by_cases beyond : file.lastPage < last
    · exact .inl ⟨_, chainValue_of_beyond few trail ends beyond, nofun⟩
    · have type := ((stops_iff.mp stops).resolve_left ends).resolve_left beyond
      exact .inl ⟨_, chainValue_of_noOverflow few trail ends (Nat.not_lt.mp beyond) type, nofun⟩

end Endings

/-- A listed value is read exactly when its chain ends at page zero without coming back to a page,
the last page has room for what it uses, and the pages hold enough bytes; it is the first of them.
The chain is said to loop exactly when it comes back to a page. It ends with another fault at a page
beyond the last or of another type. A chain that does not come back stays below the limit. -/
theorem Places.chainValue_iff (places : file.Places number slot first length) :
    (∀ value, file.chainValue first length = .ok value ↔
      ∃ pages, file.Trail first pages 0 ∧ pages.Nodup ∧
        (∀ page ∈ pages, page ≤ file.lastPage ∧
          (file.pageAt page).byteAt 25 = overflowPageType) ∧
        (∀ page ∈ pages.getLast?, pageHeaderSize + file.used page ≤ file.pageSize) ∧
        length ≤ (file.contents pages).flatten.length ∧
        value = (file.contents pages).flatten.take length) ∧
    (file.chainValue first length = .error (.chainLoops first) ↔ file.Revisits first) ∧
    (∀ pages last, file.Trail first pages last → last ≠ 0 →
      (file.lastPage < last →
        file.chainValue first length = .error (.beyondLastPage last file.lastPage)) ∧
      (last ≤ file.lastPage → (file.pageAt last).byteAt 25 ≠ overflowPageType →
        file.chainValue first length =
          .error (.notOverflow last ((file.pageAt last).byteAt 25)))) ∧
    ∀ pages last, file.Trail first pages last → pages.Nodup → pages.length < file.lastPage := by
  have short {pages : List Nat} {last : Nat} (trail : file.Trail first pages last)
      (distinct : pages.Nodup) : pages.length < file.lastPage :=
    trail.length_lt distinct places.positive places.inside places.noOverflow
  refine ⟨fun value => ⟨fun read => ?_, ?_⟩, ⟨fun loops => ?_, places.chainValue_of_revisits⟩, ?_,
    fun pages last => short⟩
  · have onward : ¬ file.Revisits first := by
      intro revisits
      rw [places.chainValue_of_revisits revisits] at read
      cases read
    rcases places.read_or_fault onward with ⟨fault, failed, -⟩ | ⟨pages, trail, distinct, fits,
      enough, whole⟩
    · rw [failed] at read
      cases read
    · refine ⟨pages, trail, distinct, ?_, fits, enough, ?_⟩
      · intro page member
        obtain ⟨next, links⟩ := trail.links_of_mem member
        exact ⟨links.inside, links.type⟩
      · rw [whole] at read
        exact (Except.ok.inj read).symm
  · rintro ⟨pages, trail, distinct, -, fits, enough, rfl⟩
    rw [chainValue_of_fits (short trail distinct) trail fits, if_neg (Nat.not_lt.mpr enough)]
  · by_contra onward
    rcases places.read_or_fault onward with ⟨fault, failed, other⟩ | ⟨_, _, _, _, _, read⟩
    · rw [failed] at loops
      exact other (Except.error.inj loops)
    · rw [read] at loops
      cases loops
  · intro pages last trail noEnd
    constructor
    · intro beyond
      have stops := stops_iff.mpr (.inr (.inl beyond))
      exact chainValue_of_beyond (short trail (trail.nodup stops)) trail noEnd beyond
    · intro inside type
      have stops := stops_iff.mpr (.inr (.inr type))
      exact chainValue_of_noOverflow (short trail (trail.nodup stops)) trail noEnd inside type

section Sample

/-- Small pages, most significant byte first. -/
private def pageWriter : Writer := ⟨.big, 512⟩

/-- A page that lists two values, a chain that goes from page 3 back to page 2, and two pages that
name each other. -/
def crossingPages : List Bytes :=
  [pageWriter.hashPage 1 [(0, 3, 490), (1, 4, 1)], pageWriter.overflowPage 2 3 0 [1, 2, 3, 4, 5],
    pageWriter.overflowPage 3 0 2 (Bytes.zeros 486), pageWriter.overflowPage 4 5 5 [6],
    pageWriter.overflowPage 5 4 4 [7]]

def crossingFile : HashFile where
  order := .big
  pageSize := 512
  lastPage := 5
  pages := ((pageWriter.metaPage 5 2 :: crossingPages).map List.toArray).toArray

/-- The first value is read across both pages of its chain; the chain of the second one loops. -/
theorem Places.chainValue_iff_sample :
    parse (pageWriter.metaPage 5 2 :: crossingPages).flatten = .ok crossingFile ∧
      crossingFile.Places 1 1 3 490 ∧ crossingFile.Places 1 3 4 1 ∧
      crossingFile.chainValue 3 490 = .ok (Bytes.zeros 486 ++ [1, 2, 3, 4]) ∧
      crossingFile.chainValue 4 1 = .error (.chainLoops 4) := by
  have parsed : parse (pageWriter.metaPage 5 2 :: crossingPages).flatten = .ok crossingFile :=
    parse_flatten (by decide) (by decide +kernel) rfl (by decide)
  have read : crossingFile.Places 1 1 3 490 := by decide +kernel
  have loops : crossingFile.Places 1 3 4 1 := by decide +kernel
  have toSecond : crossingFile.Links 3 2 := by decide +kernel
  have toEnd : crossingFile.Links 2 0 := by decide +kernel
  have onward : crossingFile.Links 4 5 := by decide +kernel
  have back : crossingFile.Links 5 4 := by decide +kernel
  refine ⟨parsed, read, loops, (read.chainValue_iff.1 _).mpr ⟨[3, 2], ?_, by decide, ?_⟩,
    loops.chainValue_iff.2.1.mpr ⟨[4, 5], 4, ?_, by decide⟩⟩
  · exact .cons toSecond (.cons toEnd (.here 0))
  · decide +kernel
  · exact .cons onward (.cons back (.here 4))

end Sample

end ImageAudit.Rpm.HashFile
