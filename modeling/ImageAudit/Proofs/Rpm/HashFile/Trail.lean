import ImageAudit.Proofs.Fallible
import ImageAudit.Rpm.HashFile
import Mathlib.Data.List.Induction
import Mathlib.Data.List.Perm.Subperm
import Mathlib.Tactic.MkIffOfInductiveProp

/-! # Chains that a hostile file may hold

Each overflow page names the page that is followed next, and nothing keeps a file from naming any
page at all. From a page on, the pages that are followed either end, at page zero or at a page that
is none of a chain, or come back to one of them. A trail that ends never comes back; and since the
page that lists a value is no overflow page itself, a trail that does not come back is shorter than
the file has pages behind the first. So the limit on the pages of a chain is met by the trails that
come back and by no others, and every other chain is read to its end.
-/

namespace ImageAudit.Rpm.HashFile

open Fallible

variable (file : HashFile)

/-- The page with a number, without bytes where there is none. -/
def pageAt (number : Nat) : Page := file.pages.getD number #[]

/-- An overflow page of the file, which names the page that is followed next. Page zero is named at
the end of a chain and is never followed. -/
@[mk_iff]
structure Links (number next : Nat) : Prop where
  notEnd : number ≠ 0
  inside : number ≤ file.lastPage
  type : (file.pageAt number).byteAt 25 = overflowPageType
  next : file.word (file.pageAt number) 16 = next

instance (number next : Nat) : Decidable (file.Links number next) :=
  decidable_of_iff _ (file.links_iff number next).symm

/-- The overflow pages that are followed one after the other from a page on, and the page that is
come to in the end. -/
inductive Trail : Nat → List Nat → Nat → Prop where
  | here (number : Nat) : Trail number [] number
  | cons {number next : Nat} {pages : List Nat} {last : Nat} (links : file.Links number next)
    (more : Trail next pages last) : Trail number (number :: pages) last

/-- The chain comes back to a page that was followed already. -/
def Revisits (first : Nat) : Prop :=
  ∃ pages again, file.Trail first pages again ∧ again ∈ pages

/-- How many bytes the last page of a chain uses. -/
def used (number : Nat) : Nat := file.short (file.pageAt number) 22

/-- What a page of a chain holds: all that follows the page header. -/
def content (number : Nat) : Bytes := (file.pageAt number).toList.drop pageHeaderSize

/-- What the last page of a chain holds: the part in use. -/
def usedContent (number : Nat) : Bytes :=
  (file.pageAt number).slice pageHeaderSize (file.used number)

/-- What the pages of a chain hold, page by page. -/
def contents (pages : List Nat) : List Bytes :=
  pages.dropLast.map file.content ++ (pages.getLast?.map file.usedContent).toList

variable {file}

theorem page_of_le {number : Nat} (inside : number ≤ file.lastPage) :
    file.page number = .ok (file.pageAt number) := by
  rw [page, if_neg (Nat.not_lt.mpr inside), pageAt]

section Trails

variable {number other next last : Nat} {pages : List Nat}

theorem Links.unique (links : file.Links number next) (links' : file.Links number other) :
    next = other :=
  links.next.symm.trans links'.next

/-- No page is followed from here. -/
def Stops (file : HashFile) (number : Nat) : Prop := ∀ next, ¬ file.Links number next

theorem stops_iff : file.Stops number ↔
    number = 0 ∨ file.lastPage < number ∨ (file.pageAt number).byteAt 25 ≠ overflowPageType := by
  constructor
  · intro stops
    by_contra others
    simp only [not_or, Nat.not_lt, ne_eq, Decidable.not_not] at others
    exact stops _ ⟨others.1, others.2.1, others.2.2, rfl⟩
  · rintro stops next ⟨notEnd, inside, type, -⟩
    rcases stops with zero | beyond | noOverflow
    · exact notEnd zero
    · omega
    · exact noOverflow type

theorem Trail.links_of_mem (trail : file.Trail number pages last) {page : Nat}
    (member : page ∈ pages) : ∃ next, file.Links page next := by
  induction trail with
  | here => cases member
  | cons links more ih =>
    rcases List.mem_cons.mp member with rfl | later
    · exact ⟨_, links⟩
    · exact ih later

/-- A trail that does not come to page zero does not begin there. -/
theorem Trail.ne_zero (trail : file.Trail number pages last) (noEnd : last ≠ 0) : number ≠ 0 := by
  cases trail with
  | here => exact noEnd
  | cons links more => exact links.notEnd

/-- A trail is cut in two where it passes a page. -/
theorem Trail.split {before after : List Nat} {page : Nat}
    (trail : file.Trail number (before ++ page :: after) last) :
    file.Trail number before page ∧ file.Trail page (page :: after) last := by
  induction before generalizing number with
  | nil =>
    have same : number = page := by cases trail; rfl
    subst same
    exact ⟨.here number, trail⟩
  | cons first before ih =>
    cases trail with
    | cons links more =>
      obtain ⟨toPage, onward⟩ := ih more
      exact ⟨.cons links toPage, onward⟩

/-- A trail that ends runs through every trail from the same page. -/
theorem Trail.exists_append {between : Nat} {passed : List Nat}
    (passes : file.Trail number passed between) (ends : file.Trail number pages last)
    (stops : file.Stops last) : ∃ rest, pages = passed ++ rest ∧ file.Trail between rest last := by
  induction passes generalizing pages with
  | here => exact ⟨pages, rfl, ends⟩
  | cons links more ih =>
    cases ends with
    | here => exact absurd links (stops _)
    | cons links' more' =>
      obtain rfl := links.unique links'
      obtain ⟨rest, rfl, onward⟩ := ih more'
      exact ⟨rest, rfl, onward⟩

/-- A trail that ends does not pass where another comes back: it would pass there ever again. -/
theorem Trail.not_cycle {cycle : List Nat} (ends : file.Trail number pages last)
    (stops : file.Stops last) (some : cycle ≠ []) : ¬ file.Trail number cycle number := by
  intro again
  induction long : pages.length using Nat.strongRecOn generalizing pages with
  | ind length ih =>
    obtain ⟨rest, rfl, onward⟩ := again.exists_append ends stops
    have positive := List.length_pos_iff.mpr some
    rw [List.length_append] at long
    exact ih rest.length (by omega) onward rfl

theorem Trail.not_revisits (ends : file.Trail number pages last) (stops : file.Stops last) :
    ¬ file.Revisits number := by
  rintro ⟨passed, again, passes, member⟩
  obtain ⟨before, after, rfl⟩ := List.append_of_mem member
  obtain ⟨toAgain, around⟩ := passes.split
  obtain ⟨rest, -, onward⟩ := toAgain.exists_append ends stops
  exact onward.not_cycle stops (List.cons_ne_nil _ _) around

/-- A trail that follows no page twice, or else comes back. -/
theorem Trail.nodup_or_revisits (trail : file.Trail number pages last) :
    pages.Nodup ∨ file.Revisits number := by
  induction trail with
  | here => exact .inl List.nodup_nil
  | @cons number next pages last links more ih =>
    rcases ih with distinct | ⟨passed, again, passes, member⟩
    · by_cases member : number ∈ pages
      · obtain ⟨before, after, rfl⟩ := List.append_of_mem member
        exact .inr ⟨number :: before, number, .cons links more.split.1, List.mem_cons_self ..⟩
      · exact .inl (List.nodup_cons.mpr ⟨member, distinct⟩)
    · exact .inr ⟨number :: passed, again, .cons links passes, List.mem_cons_of_mem _ member⟩

theorem Trail.nodup (ends : file.Trail number pages last) (stops : file.Stops last) :
    pages.Nodup :=
  ends.nodup_or_revisits.resolve_right (ends.not_revisits stops)

/-- A page that is no overflow page leaves one page fewer to follow. -/
theorem Trail.length_lt (trail : file.Trail number pages last) (distinct : pages.Nodup)
    {apart : Nat} (positive : 0 < apart) (inside : apart ≤ file.lastPage)
    (noOverflow : (file.pageAt apart).byteAt 25 ≠ overflowPageType) :
    pages.length < file.lastPage := by
  have absent : apart ∉ pages := by
    intro member
    obtain ⟨next, links⟩ := trail.links_of_mem member
    exact noOverflow links.type
  have among : apart :: pages ⊆ List.range' 1 file.lastPage := by
    intro page member
    rw [List.mem_range'_1]
    rcases List.mem_cons.mp member with rfl | member
    · omega
    · obtain ⟨next, links⟩ := trail.links_of_mem member
      have := links.notEnd
      have := links.inside
      omega
  have few := (List.nodup_cons.mpr ⟨absent, distinct⟩).length_le_of_subset among
  rw [List.length_cons, List.length_range'] at few
  exact few

variable (file) in
/-- As many pages are followed as one likes, unless the trail ends before. -/
theorem exists_trail (steps number : Nat) :
    (∃ pages last, file.Trail number pages last ∧ file.Stops last ∧ pages.length < steps) ∨
      ∃ pages last, file.Trail number pages last ∧ pages.length = steps := by
  induction steps generalizing number with
  | zero => exact .inr ⟨[], number, .here number, rfl⟩
  | succ steps ih =>
    by_cases stops : file.Stops number
    · exact .inl ⟨[], number, .here number, stops, Nat.succ_pos _⟩
    · simp only [Stops, not_forall, Classical.not_not] at stops
      obtain ⟨next, links⟩ := stops
      rcases ih next with ⟨pages, last, trail, ends, few⟩ | ⟨pages, last, trail, long⟩
      · exact .inl ⟨number :: pages, last, .cons links trail, ends, Nat.succ_lt_succ few⟩
      · exact .inr ⟨number :: pages, last, .cons links trail, congrArg (· + 1) long⟩

end Trails

section Following

variable {number next last : Nat} {pages : List Nat} (first : Nat) (read : List Bytes)

/-- One page is followed. -/
private theorem followChain_of_links (links : file.Links number next) (hops : Nat) :
    file.followChain first (hops + 1) number read =
      file.payload number (file.pageAt number) (next == 0) >>= fun content =>
        file.followChain first hops next (content :: read) := by
  obtain ⟨number, rfl⟩ := Nat.exists_eq_succ_of_ne_zero links.notEnd
  simp only [followChain, page_of_le links.inside, ok_bind, links.type, ne_eq, not_true_eq_false,
    if_false, links.next]

private theorem followChain_zero (hops : Nat) :
    file.followChain first hops 0 read = .ok read.reverse := by
  cases hops <;> rfl

/-- A trail is followed as far as the limit allows. -/
theorem Trail.followChain (trail : file.Trail number pages last) (noEnd : last ≠ 0) (hops : Nat) :
    file.followChain first (hops + pages.length) number read =
      file.followChain first hops last ((pages.map file.content).reverse ++ read) := by
  induction trail generalizing read with
  | here => rfl
  | @cons number next pages last links more ih =>
    have full : file.payload number (file.pageAt number) (next == 0) =
        .ok (file.content number) := by
      rw [payload, beq_false_of_ne (more.ne_zero noEnd), if_neg Bool.false_ne_true]
      rfl
    rw [List.length_cons, ← Nat.add_assoc, followChain_of_links first read links, full, ok_bind,
      ih _ noEnd, List.map_cons, List.reverse_cons, List.append_assoc, List.singleton_append]

/-- The last page of a trail to page zero decides whether its content is read. -/
private theorem Trail.followChain_last {before : List Nat} {page : Nat}
    (trail : file.Trail number (before ++ [page]) 0) (hops : Nat) :
    file.followChain first (hops + (before ++ [page]).length) number read =
      if file.pageSize < pageHeaderSize + file.used page then .error (.overflowLength page)
      else .ok (read.reverse ++ file.contents (before ++ [page])) := by
  obtain ⟨toPage, fromPage⟩ := trail.split
  cases fromPage with
  | cons links more =>
    cases more with
    | here =>
      have long : hops + (before ++ [page]).length = hops + 1 + before.length := by simp; omega
      have whole : file.contents (before ++ [page]) =
          before.map file.content ++ [file.usedContent page] := by simp [contents]
      rw [long, toPage.followChain first read links.notEnd, followChain_of_links first _ links,
        payload, beq_self_eq_true, if_pos rfl, whole]
      change (if file.pageSize < pageHeaderSize + file.used page then _ else _) >>= _ = _
      split
      · rfl
      · rw [ok_bind, followChain_zero]
        simp [usedContent, used]

/-- A trail to page zero is read to its end when its last page has room for what it uses. -/
theorem Trail.followChain_of_fits (trail : file.Trail number pages 0)
    (fits : ∀ page ∈ pages.getLast?, pageHeaderSize + file.used page ≤ file.pageSize) (hops : Nat) :
    file.followChain first (hops + pages.length) number read =
      .ok (read.reverse ++ file.contents pages) := by
  cases pages using List.reverseRecOn with
  | nil =>
    cases trail with
    | here => rw [followChain_zero]; simp [contents]
  | append_singleton before page =>
    have room := fits page List.getLast?_concat
    rw [trail.followChain_last, if_neg (Nat.not_lt.mpr room)]

/-- What the last page uses must fit the page. -/
theorem Trail.followChain_of_overrun (trail : file.Trail number pages 0) {page : Nat}
    (isLast : page ∈ pages.getLast?)
    (overruns : file.pageSize < pageHeaderSize + file.used page) (hops : Nat) :
    file.followChain first (hops + pages.length) number read = .error (.overflowLength page) := by
  obtain ⟨before, rfl⟩ := List.getLast?_eq_some_iff.mp isLast
  rw [trail.followChain_last, if_pos overruns]

/-- A page beyond the last is not followed. -/
theorem followChain_of_beyond (noEnd : number ≠ 0) (beyond : file.lastPage < number) (hops : Nat) :
    file.followChain first (hops + 1) number read =
      .error (.beyondLastPage number file.lastPage) := by
  obtain ⟨number, rfl⟩ := Nat.exists_eq_succ_of_ne_zero noEnd
  simp only [HashFile.followChain, page, if_pos beyond]
  rfl

/-- A page of another type is not followed. -/
theorem followChain_of_noOverflow (noEnd : number ≠ 0) (inside : number ≤ file.lastPage)
    (type : (file.pageAt number).byteAt 25 ≠ overflowPageType) (hops : Nat) :
    file.followChain first (hops + 1) number read =
      .error (.notOverflow number ((file.pageAt number).byteAt 25)) := by
  obtain ⟨number, rfl⟩ := Nat.exists_eq_succ_of_ne_zero noEnd
  simp only [HashFile.followChain, page_of_le inside, ok_bind, if_pos type]
  rfl

/-- The limit is met where pages are left to follow. -/
theorem followChain_of_limit (noEnd : number ≠ 0) :
    file.followChain first 0 number read = .error (.chainLoops first) := by
  obtain ⟨number, rfl⟩ := Nat.exists_eq_succ_of_ne_zero noEnd
  rfl

end Following

end ImageAudit.Rpm.HashFile
