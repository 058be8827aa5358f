import ImageAudit.Fixture.Layer
import ImageAudit.Gzip
import ImageAudit.Layer.Blob
import ImageAudit.Proofs.Tar.PathField
import Mathlib.Data.List.Chain

/-! # How an archive begins

The first bytes of an archive are those of a path, of the name of an entry that carries a long one,
or zeros. In a path a byte below `0x80` is never followed by a byte that goes on with a character.
Both compressions mark their files with such a pair, so no archive is taken for a compressed one.
-/

namespace ImageAudit.Utf8

/-- What may stand next to each other in a text: a byte below `0x80` ends its character. -/
def Adjoins (byte following : UInt8) : Prop := byte < 0x80 → isTail following = false

private theorem utf8EncodeChar_spec (c : Char) :
    ∃ first tails, String.utf8EncodeChar c = first :: tails ∧ isTail first = false ∧
      (tails = [] ∨ ∀ byte ∈ first :: tails, 0x80 ≤ byte.toNat) := by
  have valid : c.val.toNat < 0x110000 := by
    rcases c.valid with low | high
    · omega
    · exact high.2
  simp only [String.utf8EncodeChar]
  repeat' split
  all_goals refine ⟨_, _, rfl, ?_, ?_⟩
  all_goals
    simp only [List.forall_mem_cons, List.not_mem_nil, false_implies, implies_true, and_true,
      isTail, Bool.and_eq_false_iff, decide_eq_false_iff_not, UInt8.not_le,
      UInt8.lt_iff_toNat_lt, UInt8.reduceToNat, UInt8.toNat_ofNat', reduceCtorEq, false_or,
      true_or]
  all_goals omega

/-- Each byte of a text may stand next to the one before it. -/
theorem isChain_ofText (text : String) : (Bytes.ofText text).IsChain Adjoins := by
  rw [Bytes.ofText_eq_flatMap]
  induction text.toList with
  | nil => exact .nil
  | cons c cs ih =>
    obtain ⟨first, tails, encoded, -, wide⟩ := utf8EncodeChar_spec c
    rw [List.flatMap_cons, encoded, List.isChain_append]
    refine ⟨?_, ih, ?_⟩
    · rcases wide with rfl | wide
      · exact .singleton _
      · rw [List.isChain_iff_getElem]
        intro i inside small
        have := wide _ (List.getElem_mem (by omega : i < (first :: tails).length))
        exact absurd (UInt8.lt_iff_toNat_lt.mp small) (Nat.not_lt.mpr this)
    · intro byte last following next small
      cases cs with
      | nil => cases next
      | cons d cs =>
        obtain ⟨lead, tails', encoded', lead_not_tail, -⟩ := utf8EncodeChar_spec d
        rw [List.flatMap_cons, encoded'] at next
        cases next
        exact lead_not_tail

end ImageAudit.Utf8

namespace ImageAudit.Tar.Writer

open Utf8 (Adjoins isTail)

/-- Data of two bytes or more, of which the second may stand next to the first in a text. -/
def BeginsAsText (data : Bytes) : Prop :=
  ∃ first second rest, data = first :: second :: rest ∧ Adjoins first second

theorem BeginsAsText.append {data : Bytes} (begins : BeginsAsText data) (more : Bytes) :
    BeginsAsText (data ++ more) := by
  obtain ⟨first, second, rest, rfl, adjoins⟩ := begins
  exact ⟨first, second, rest ++ more, rfl, adjoins⟩

/-- The mark of a compression is a pair that stands in no text, so it is not there. -/
theorem BeginsAsText.not_marked {data : Bytes} (begins : BeginsAsText data)
    {byte following : UInt8} {more : Bytes} (apart : ¬ Adjoins byte following) :
    ¬ byte :: following :: more <+: data := by
  obtain ⟨first, second, rest, rfl, adjoins⟩ := begins
  intro marked
  obtain ⟨rfl, behind⟩ := List.cons_prefix_cons.mp marked
  obtain ⟨rfl, -⟩ := List.cons_prefix_cons.mp behind
  exact apart adjoins

section Name

private theorem infix_intercalate_of_mem {part : Bytes} {parts : List Bytes}
    (member : part ∈ parts) : part <:+: slash.intercalate parts := by
  induction parts with
  | nil => cases member
  | cons first parts ih =>
    cases parts with
    | nil =>
      simp [List.mem_singleton.mp member]
    | cons second parts =>
      rw [List.intercalate_cons_cons]
      rcases List.mem_cons.mp member with rfl | later
      · rw [List.append_assoc]
        exact (List.prefix_append ..).isInfix
      · exact (ih later).trans (List.suffix_append ..).isInfix

/-- A component stands in its path, unless it is the root. -/
theorem infix_of_mem_components {path component : Bytes} (member : component ∈ components path) :
    component = slash ∨ component ≠ [] ∧ component <:+: path := by
  obtain ⟨first, rest, split⟩ := List.exists_cons_of_ne_nil (List.splitOn_ne_nil 0x2F path)
  have within {part : Bytes} (listed : part ∈ first :: rest) : part <:+: path := by
    have whole : slash.intercalate (path.splitOn 0x2F) = path := List.intercalate_splitOn 0x2F
    rw [← whole, split]
    exact infix_intercalate_of_mem listed
  rw [components, split] at member
  dsimp only at member
  rcases List.mem_append.mp member with front | later
  · split_ifs at front with absolute empty
    · exact .inl (List.mem_singleton.mp front)
    · cases front
    · rw [List.mem_singleton.mp front]
      exact .inr ⟨empty, within (List.mem_cons_self ..)⟩
  · obtain ⟨later, named⟩ := List.mem_filter.mp later
    refine .inr ⟨?_, within (List.mem_cons_of_mem _ later)⟩
    rintro rfl
    cases named

/-- What a path is spelled as begins with a component of it, behind which there may be a slash. -/
theorem exists_component_of_spells {path text : Bytes}
    (spells : Spells (pathPieces path false) text) :
    ∃ component behind, text = component ++ behind ∧ component ≠ [] ∧ component <:+: path ∧
      ∀ byte ∈ behind.head?, byte = 0x2F := by
  by_cases empty : components path = []
  · rw [pathPieces, if_pos empty] at spells
    cases spells
  · obtain ⟨first, rest, kept⟩ := List.exists_cons_of_ne_nil (keptComponents_ne_nil empty)
    rw [pathPieces, if_neg empty, ← keptComponents, kept] at spells
    obtain ⟨spelled, trail, begins, trails, rfl⟩ := spells.of_append
    obtain ⟨rfl, noRoot⟩ := Spells.pieces (fun _ => rfl) begins
    have listed : first ∈ components path :=
      mem_components_of_kept (kept ▸ List.mem_cons_self ..)
    rcases infix_of_mem_components listed with rfl | ⟨someByte, within⟩
    · exact absurd (List.mem_cons_self ..) noRoot
    · refine ⟨first, _, List.append_assoc .., someByte, within, ?_⟩
      intro byte next
      cases rest with
      | nil =>
        rcases trailing_spells trails with rfl | rfl
        · cases next
        · cases next
          rfl
      | cons component rest =>
        cases next
        rfl

/-- The field of a path that takes all of it begins as the path does. -/
theorem beginsAsText_bytes {path : String} {slot : Slot}
    (filled : Slot.blank.fill (pathPieces (Bytes.ofText path) false) = (slot, true)) :
    BeginsAsText slot.bytes := by
  obtain ⟨clean, text, spells, written⟩ := Slot.clean_blank.fill filled
  obtain ⟨component, behind, rfl, someByte, within, next⟩ := exists_component_of_spells spells
  have written : slot.written = component ++ behind := written
  have chain : component.IsChain Adjoins := List.IsChain.infix (Utf8.isChain_ofText path) within
  have size := clean.size
  rw [Slot.bytes, written, List.append_assoc] at size ⊢
  obtain ⟨first, rest, rfl⟩ := List.exists_cons_of_ne_nil someByte
  -- The second byte is one of the component, the slash behind it, or the zero behind what was
  -- written.
  cases rest with
  | cons second rest => exact ⟨first, second, _, rfl, (List.isChain_cons_cons.mp chain).1⟩
  | nil =>
    cases behind with
    | cons second behind =>
      obtain rfl := next second rfl
      exact ⟨first, 0x2F, _, rfl, fun _ => by decide⟩
    | nil =>
      cases left : slot.behind with
      | cons second left' =>
        obtain rfl := clean.behind second (by rw [left]; rfl)
        exact ⟨first, 0, _, rfl, fun _ => by decide⟩
      | nil =>
        rw [left] at size
        cases size

end Name

section Entries

theorem beginsAsText_block {fields : HeaderFields} (named : BeginsAsText fields.name) :
    BeginsAsText fields.block := by
  rw [HeaderFields.block, HeaderFields.before, textField]
  simp only [List.append_assoc]
  exact named.append _

theorem beginsAsText_longText (kind : UInt8) (text : Bytes) :
    BeginsAsText (longText kind text) := by
  rw [longText]
  refine (beginsAsText_block ?_).append _
  have name : Bytes.ofText "././@LongLink" = 0x2E :: 0x2F :: Bytes.ofText "./@LongLink" := by
    decide +kernel
  exact ⟨_, _, _, name, fun _ => by decide⟩

/-- The entry in front of a path, or else the field of the path, begins as a text does. -/
theorem beginsAsText_placePath (path : String) :
    BeginsAsText (placePath (Bytes.ofText path)).2 ∨
      (placePath (Bytes.ofText path)).2 = [] ∧ BeginsAsText (placePath (Bytes.ofText path)).1 := by
  unfold placePath
  rcases filled : Slot.blank.fill (pathPieces (Bytes.ofText path) false) with ⟨slot, _ | _⟩
  · exact .inl (beginsAsText_longText _ _)
  · exact .inr ⟨rfl, beginsAsText_bytes filled⟩

variable (kind : UInt8) (path : String)

theorem beginsAsText_withData (mode : UInt32) (data : Bytes) :
    BeginsAsText (withData kind path mode data) := by
  unfold withData
  dsimp only
  rcases beginsAsText_placePath path with long | ⟨none, named⟩
  · rw [List.append_assoc]
    exact long.append _
  · rw [none, List.nil_append]
    exact (beginsAsText_block named).append _

theorem beginsAsText_withTarget (target : String) : BeginsAsText (withTarget kind path target) := by
  unfold withTarget
  dsimp only
  rcases beginsAsText_placePath path with long | ⟨none, named⟩
  · rw [List.append_assoc]
    exact long.append _
  · rw [none, List.nil_append]
    rcases (placeLink_spec (Bytes.ofText target)).2 with none | long
    · rw [none, List.nil_append]
      exact beginsAsText_block named
    · rw [long]
      exact (beginsAsText_longText _ _).append _

end Entries

end ImageAudit.Tar.Writer

namespace ImageAudit.Fixture

open Tar.Writer

theorem LayerEntry.beginsAsText_archived (entry : LayerEntry) : BeginsAsText entry.archived := by
  cases entry with
  | file path mode content => exact beginsAsText_withData ..
  | directory path mode => exact beginsAsText_withData ..
  | symbolicLink path target => exact beginsAsText_withTarget ..
  | hardLink path target => exact beginsAsText_withTarget ..

/-- An archive begins with its first entry, or with the zeros that end it. -/
theorem beginsAsText_archive (entries : List LayerEntry) : BeginsAsText (archive entries) := by
  unfold archive
  cases entries with
  | nil => exact ⟨0, 0, Bytes.zeros (2 * Tar.blockSize - 2), rfl, fun _ => by decide⟩
  | cons entry entries =>
    rw [List.flatMap_cons, List.append_assoc]
    exact entry.beginsAsText_archived.append _

/-- An archive is opened as it is: it is taken for no compressed file. -/
theorem decode_archive (path : String) (entries : List LayerEntry) :
    Blob.decode path (archive entries) = .ok (.ofBytes (archive entries)) := by
  have begins := beginsAsText_archive entries
  have notZstd : ¬ Blob.zstdMagic <+: archive entries := by
    apply begins.not_marked
    intro adjoins
    exact absurd (adjoins (by decide)) (by decide)
  have notGzip : ¬ Gzip.magic <+: archive entries := by
    apply begins.not_marked
    intro adjoins
    exact absurd (adjoins (by decide)) (by decide)
  rw [Blob.decode, if_neg, if_neg]
  · rwa [List.isPrefixOf_iff_prefix]
  · rwa [List.isPrefixOf_iff_prefix]

end ImageAudit.Fixture
