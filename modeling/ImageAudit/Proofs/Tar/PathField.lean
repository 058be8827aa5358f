import ImageAudit.Proofs.Path
import ImageAudit.Proofs.Text.Utf8
import ImageAudit.Tar.Writer
import Mathlib.Tactic.SplitIfs

/-! # A path in its field

The components of a path are joined anew where its field holds them, without those that name
nothing. What is read there until the first zero byte then has the same normal form as the path. A
path for which there is no room is kept whole in an entry in front.
-/

namespace ImageAudit.Tar.Writer

open Utf8 (decodeFrom replacement)

/-- The text of pieces that are all there. -/
inductive Spells : List (Option Bytes) → Bytes → Prop where
  | nil : Spells [] []
  | cons {part text : Bytes} {pieces : List (Option Bytes)} (rest : Spells pieces text) :
      Spells (some part :: pieces) (part ++ text)

theorem Spells.of_append {pieces others : List (Option Bytes)} {text : Bytes}
    (spells : Spells (pieces ++ others) text) :
    ∃ first second, Spells pieces first ∧ Spells others second ∧ text = first ++ second := by
  induction pieces generalizing text with
  | nil => exact ⟨[], text, .nil, spells, rfl⟩
  | cons piece pieces ih =>
    cases spells with
    | cons rest =>
      obtain ⟨first, second, spells, spells', rfl⟩ := ih rest
      exact ⟨_, second, .cons spells, spells', (List.append_assoc ..).symm⟩

namespace Slot

/-- The field holds what was written, ended by a zero byte where it does not fill it. -/
structure Clean (slot : Slot) : Prop where
  size : slot.bytes.length = fieldSize
  written : 0 ∉ slot.written
  behind : ∀ byte ∈ slot.behind.head?, byte = 0

theorem clean_blank : Clean blank :=
  ⟨rfl, List.not_mem_nil, by simp [blank, Bytes.zeros, fieldSize]⟩

theorem Clean.untilZero {slot : Slot} (clean : slot.Clean) :
    slot.bytes.untilZero = slot.written := by
  have kept : ∀ byte ∈ slot.written, (byte != 0) = true := fun byte member =>
    bne_iff_ne.mpr (ne_of_mem_of_not_mem member clean.written)
  rw [bytes, Bytes.untilZero, List.takeWhile_append_of_pos kept]
  cases rest : slot.behind with
  | nil => exact List.append_nil _
  | cons byte behind =>
    have zero : byte = 0 := clean.behind byte (by rw [rest]; rfl)
    rw [List.takeWhile_cons_of_neg (by simp [zero]), List.append_nil]

variable {slot next last : Slot} {piece : Bytes}

theorem write?_eq_some (written : slot.write? piece = some next) :
    piece.length ≤ slot.behind.length ∧ 0 ∉ piece ∧
      next = ⟨slot.written ++ piece, (slot.behind.drop piece.length).set 0 0⟩ := by
  unfold write? at written
  split at written
  · cases written
  · rename_i refused
    obtain ⟨room, noZero⟩ := not_or.mp refused
    exact ⟨Nat.le_of_not_lt room, noZero, (Option.some.inj written).symm⟩

theorem length_write? (written : slot.write? piece = some next) :
    next.bytes.length = slot.bytes.length := by
  obtain ⟨room, -, rfl⟩ := write?_eq_some written
  simp only [bytes, List.length_append, List.length_set, List.length_drop]
  omega

theorem Clean.write? (clean : slot.Clean) (written : slot.write? piece = some next) :
    next.Clean := by
  have size := length_write? written
  obtain ⟨-, noZero, rfl⟩ := write?_eq_some written
  refine ⟨size.trans clean.size, ?_, ?_⟩
  · rw [List.mem_append]
    exact not_or.mpr ⟨clean.written, noZero⟩
  · intro byte first
    cases rest : slot.behind.drop piece.length with
    | nil =>
      rw [rest] at first
      cases first
    | cons old behind =>
      rw [rest] at first
      cases first
      rfl

/-- Pieces that are refused do not change the length of a field. -/
theorem length_fill (slot : Slot) (pieces : List (Option Bytes)) :
    (slot.fill pieces).1.bytes.length = slot.bytes.length := by
  induction pieces generalizing slot with
  | nil => rfl
  | cons piece pieces ih =>
    unfold fill
    cases written : piece.bind slot.write? with
    | none => rfl
    | some next =>
      obtain ⟨_, rfl, written⟩ := Option.bind_eq_some_iff.mp written
      exact (ih next).trans (length_write? written)

theorem length_fill_blank (pieces : List (Option Bytes)) :
    (blank.fill pieces).1.bytes.length = fieldSize :=
  (length_fill blank pieces).trans clean_blank.size

/-- A field that took all pieces holds them one behind the other. -/
theorem Clean.fill (clean : slot.Clean) {pieces : List (Option Bytes)}
    (filled : slot.fill pieces = (last, true)) :
    last.Clean ∧ ∃ text, Spells pieces text ∧ last.written = slot.written ++ text := by
  induction pieces generalizing slot with
  | nil =>
    cases filled
    exact ⟨clean, [], .nil, (List.append_nil _).symm⟩
  | cons piece pieces ih =>
    unfold Slot.fill at filled
    cases written : piece.bind slot.write? with
    | none =>
      rw [written] at filled
      cases filled
    | some next =>
      rw [written] at filled
      obtain ⟨part, rfl, written⟩ := Option.bind_eq_some_iff.mp written
      obtain ⟨clean', text, spells, joined⟩ := ih (clean.write? written) filled
      obtain ⟨-, -, rfl⟩ := write?_eq_some written
      exact ⟨clean', part ++ text, .cons spells, by rw [joined, List.append_assoc]⟩

end Slot

section Components

/-- A component that is a name or leads up. -/
def counts (component : Bytes) : Bool := component != [] && component != [0x2E]

/-- The components of a path that are names or lead up. -/
def names (path : Bytes) : List Bytes := (path.splitOn 0x2F).filter counts

theorem names_append_slash (before after : Bytes) :
    names (before ++ 0x2F :: after) = names before ++ names after := by
  rw [names, List.splitOn_append_cons_self, List.filter_append, names, names]

/-- What a path resolves to depends on those components only. -/
theorem resolve_decodeFrom (path : Bytes) :
    Path.resolve (decodeFrom replacement [] path) =
      (((names path).map (decodeFrom replacement [])).foldl Path.resolveSegment []).reverse := by
  have passes (components : List Bytes) (kept : List Path.Segment) :
      (components.map (decodeFrom replacement [])).foldl Path.resolveSegment kept =
        ((components.filter counts).map (decodeFrom replacement [])).foldl
          Path.resolveSegment kept := by
    induction components generalizing kept with
    | nil => rfl
    | cons component components ih =>
      rw [List.map_cons, List.foldl_cons, List.filter_cons]
      split <;> rename_i named
      · exact ih _
      · rw [ih, Path.resolveSegment, if_pos]
        by_cases empty : component = []
        · exact .inl (Utf8.decodeFrom_eq_nil_iff.mpr empty)
        · obtain rfl : component = [0x2E] := by simpa [counts, empty] using named
          rw [Utf8.decodeFrom_cons, Utf8.next_ascii _ (by decide), Utf8.decodeFrom_nil]
          exact .inr rfl
  rw [Path.resolve, Utf8.splitOn_decodeFrom, passes, names]

/-- Two paths with the same names have the same normal form, unless one is the root. -/
theorem normalize_lossy_congr {path other : Bytes} (same : names path = names other)
    (notRoot : path ≠ slash) (notRoot' : other ≠ slash) :
    Path.normalize (Utf8.lossy path) = Path.normalize (Utf8.lossy other) := by
  have differs {path : Bytes} (notRoot : path ≠ slash) : Utf8.lossy path ≠ "/" := by
    intro root
    have chars : decodeFrom replacement [] path = ['/'] := by
      rw [← Utf8.toList_lossy, root]
      rfl
    exact Utf8.decodeFrom_ne (by simp) notRoot chars
  rw [Path.normalize, if_neg (differs notRoot), Path.normalize, if_neg (differs notRoot'),
    Utf8.toList_lossy, Utf8.toList_lossy, resolve_decodeFrom, resolve_decodeFrom, same]

/-- Components with slashes between them. -/
def joined (first : Bytes) (rest : List Bytes) : Bytes := first ++ rest.flatMap (slash ++ ·)

theorem names_joined {first : Bytes} {rest : List Bytes}
    (noSlash : ∀ component ∈ first :: rest, 0x2F ∉ component) :
    names (joined first rest) = (first :: rest).filter counts := by
  induction rest generalizing first with
  | nil =>
    rw [joined, List.flatMap_nil, List.append_nil, names,
      List.splitOn_eq_singleton (noSlash first (List.mem_cons_self ..))]
  | cons second rest ih =>
    have split : joined first (second :: rest) = joined first [] ++ 0x2F :: joined second rest := by
      simp only [joined, slash, List.flatMap_cons, List.flatMap_nil, List.append_nil,
        List.nil_append, List.cons_append]
    obtain ⟨here, later⟩ := List.forall_mem_cons.mp noSlash
    rw [split, names_append_slash, ih later, joined, List.flatMap_nil, List.append_nil, names,
      List.splitOn_eq_singleton here, ← List.filter_append, List.singleton_append]

variable {allowed : Bytes → List Bytes → Bool} (noRoot : ∀ after, allowed slash after = false)
include noRoot

theorem Spells.pieces_behind {before : Bytes} (notRoot : before ≠ slash) {components : List Bytes}
    {text : Bytes} (spells : Spells (pieces allowed (some before) components) text) :
    text = components.flatMap (slash ++ ·) ∧ slash ∉ components := by
  induction components generalizing before text with
  | nil =>
    cases spells
    exact ⟨rfl, List.not_mem_nil⟩
  | cons component components ih =>
    have apart : (some before).any (· != slash) = true := by simpa using notRoot
    rw [pieces, apart] at spells
    by_cases fits : allowed component components = true
    · simp only [fits, Bool.not_true, Bool.false_eq_true, if_false, if_true] at spells
      have named : component ≠ slash := by
        rintro rfl
        rw [noRoot] at fits
        cases fits
      cases spells with
      | cons spells =>
        cases spells with
        | cons spells =>
          obtain ⟨rfl, rest⟩ := ih named spells
          refine ⟨by rw [List.flatMap_cons, List.append_assoc], ?_⟩
          exact List.not_mem_cons_of_ne_of_not_mem (Ne.symm named) rest
    · simp only [fits, Bool.not_false, if_true] at spells
      cases spells

theorem Spells.pieces {first : Bytes} {rest : List Bytes} {text : Bytes}
    (spells : Spells (pieces allowed none (first :: rest)) text) :
    text = joined first rest ∧ slash ∉ first :: rest := by
  rw [Writer.pieces] at spells
  by_cases fits : allowed first rest = true
  · simp only [fits, Bool.not_true, Bool.false_eq_true, if_false, Option.any_none] at spells
    have named : first ≠ slash := by
      rintro rfl
      rw [noRoot] at fits
      cases fits
    cases spells with
    | cons spells =>
      obtain ⟨rfl, rest⟩ := Spells.pieces_behind noRoot named spells
      exact ⟨rfl, List.not_mem_cons_of_ne_of_not_mem (Ne.symm named) rest⟩
  · simp only [fits, Bool.not_false, if_true] at spells
    cases spells

end Components

section Placed

theorem trailing_spells {path text : Bytes} (spells : Spells (trailingSlash path) text) :
    text = [] ∨ text = slash := by
  unfold trailingSlash at spells
  split at spells
  · cases spells with
    | cons spells =>
      cases spells
      exact .inr (List.append_nil _)
  · cases spells
    exact .inl rfl

theorem slash_mem_components {path : Bytes} (absolute : path.head? = some 0x2F) :
    slash ∈ components path := by
  obtain ⟨first, rest, split⟩ := List.exists_cons_of_ne_nil (List.splitOn_ne_nil 0x2F path)
  rw [components, split]
  simp [absolute]

/-- The components of a relative path have its names, and none of them is empty or has a slash. -/
theorem components_spec {path : Bytes} (relative : path.head? ≠ some 0x2F) :
    (components path).filter counts = names path ∧
      ∀ component ∈ components path, component ≠ [] ∧ 0x2F ∉ component := by
  obtain ⟨first, rest, split⟩ := List.exists_cons_of_ne_nil (List.splitOn_ne_nil 0x2F path)
  have noSlash {component : Bytes} (member : component ∈ first :: rest) : 0x2F ∉ component :=
    Path.not_mem_of_mem_splitOn (split ▸ member)
  have parts : components path = (if first = [] then [] else [first]) ++ rest.filter counts := by
    rw [components, split]
    simp only [if_neg relative]
    rfl
  have cut : names path = (first :: rest).filter counts := by rw [names, split]
  rw [parts, cut, List.filter_append, List.filter_filter]
  by_cases empty : first = []
  · subst empty
    simp only [if_true, List.nil_append, Bool.and_self, List.filter_nil]
    refine ⟨(List.filter_cons_of_neg (by decide)).symm, fun component member => ?_⟩
    obtain ⟨member, named⟩ := List.mem_filter.mp member
    refine ⟨?_, noSlash (List.mem_cons_of_mem _ member)⟩
    rintro rfl
    cases named
  · simp only [if_neg empty, Bool.and_self, ← List.filter_append, List.singleton_append]
    refine ⟨trivial, fun component member => ?_⟩
    rcases List.mem_cons.mp member with rfl | later
    · exact ⟨empty, noSlash (List.mem_cons_self ..)⟩
    · obtain ⟨later, named⟩ := List.mem_filter.mp later
      refine ⟨?_, noSlash (List.mem_cons_of_mem _ later)⟩
      rintro rfl
      cases named

/-- The components of which a path is spelled: a leading `.` is left out unless it is all there
is. -/
def keptComponents (path : Bytes) : List Bytes :=
  if (components path).length = 1 then components path
  else (components path).filter (· != [0x2E])

theorem mem_components_of_kept {path component : Bytes} (member : component ∈ keptComponents path) :
    component ∈ components path := by
  unfold keptComponents at member
  split at member
  · exact member
  · exact (List.mem_filter.mp member).1

theorem slash_mem_keptComponents {path : Bytes} (absolute : path.head? = some 0x2F) :
    slash ∈ keptComponents path := by
  unfold keptComponents
  split
  · exact slash_mem_components absolute
  · exact List.mem_filter.mpr ⟨slash_mem_components absolute, rfl⟩

theorem filter_keptComponents (path : Bytes) :
    (keptComponents path).filter counts = (components path).filter counts := by
  unfold keptComponents
  split
  · rfl
  · rw [List.filter_filter]
    exact List.filter_congr fun component _ => by simp [counts]

theorem keptComponents_ne_nil {path : Bytes} (someComponent : components path ≠ []) :
    keptComponents path ≠ [] := by
  unfold keptComponents
  split <;> rename_i single
  · exact someComponent
  · obtain ⟨first, rest, split⟩ := List.exists_cons_of_ne_nil (List.splitOn_ne_nil 0x2F path)
    obtain ⟨front, short, parts⟩ : ∃ front, front.length ≤ 1 ∧
        components path = front ++ rest.filter counts := by
      rw [components, split]
      refine ⟨_, ?_, rfl⟩
      split_ifs <;> simp
    cases others : rest.filter counts with
    | nil =>
      rw [others, List.append_nil] at parts
      rw [parts] at single someComponent
      have positive := List.length_pos_iff.mpr someComponent
      omega
    | cons component components =>
      have member : component ∈ rest.filter counts := others ▸ List.mem_cons_self ..
      have keeps := (Bool.and_eq_true_iff.mp (List.mem_filter.mp member).2).2
      have listed : component ∈ front ++ rest.filter counts := List.mem_append_right _ member
      exact List.ne_nil_of_mem (List.mem_filter.mpr ⟨parts ▸ listed, keeps⟩)

/-- A path whose pieces could be written is spelled with the same names. -/
theorem names_of_spells {path text : Bytes} (spells : Spells (pathPieces path false) text) :
    names text = names path ∧ text ≠ slash ∧ path ≠ slash := by
  by_cases empty : components path = []
  · rw [pathPieces, if_pos empty] at spells
    cases spells
  · obtain ⟨first, rest, kept⟩ := List.exists_cons_of_ne_nil (keptComponents_ne_nil empty)
    rw [pathPieces, if_neg empty, ← keptComponents, kept] at spells
    obtain ⟨spelled, behind, begins, trails, rfl⟩ := spells.of_append
    obtain ⟨rfl, noRoot⟩ := Spells.pieces (fun _ => rfl) begins
    have relative : path.head? ≠ some 0x2F :=
      fun absolute => noRoot (kept ▸ slash_mem_keptComponents absolute)
    obtain ⟨named, proper⟩ := components_spec relative
    have proper : ∀ component ∈ first :: rest, component ≠ [] ∧ 0x2F ∉ component :=
      fun component member => proper component (mem_components_of_kept (kept ▸ member))
    have same : names (joined first rest) = names path := by
      rw [names_joined fun component member => (proper component member).2, ← kept,
        filter_keptComponents, named]
    obtain ⟨byte, text, rfl⟩ := List.exists_cons_of_ne_nil (proper first (List.mem_cons_self ..)).1
    have start : byte ≠ 0x2F := by
      rintro rfl
      exact (proper _ (List.mem_cons_self ..)).2 (List.mem_cons_self ..)
    refine ⟨?_, ?_, ?_⟩
    · rcases trailing_spells trails with rfl | rfl
      · rw [List.append_nil, same]
      · rw [slash, names_append_slash, same]
        exact List.append_nil _
    · intro root
      exact start (List.cons.inj root).1
    · rintro rfl
      exact relative rfl

/-- A path is read back from its field up to the normal form, or it is kept whole in front. -/
theorem placePath_spec (path : Bytes) :
    (placePath path).1.length = fieldSize ∧
      ((placePath path).2 = [] ∧
          Path.normalize (Utf8.lossy (placePath path).1.untilZero) =
            Path.normalize (Utf8.lossy path) ∨
        (placePath path).2 = longText 0x4C path) := by
  unfold placePath
  rcases filled : Slot.blank.fill (pathPieces path false) with ⟨slot, _ | _⟩
  · refine ⟨?_, .inr rfl⟩
    have full : slot.bytes.length = fieldSize := by
      have same := Slot.length_fill Slot.blank (pathPieces path false)
      rw [filled] at same
      exact same.trans Slot.clean_blank.size
    exact (Slot.length_fill ..).trans full
  · obtain ⟨clean, text, spells, written⟩ := Slot.clean_blank.fill filled
    obtain ⟨same, notRoot, notRoot'⟩ := names_of_spells spells
    have written : slot.written = text := written
    refine ⟨clean.size, .inl ⟨rfl, ?_⟩⟩
    rw [clean.untilZero, written, normalize_lossy_congr same notRoot notRoot']

/-- A link target keeps to its field; where it does not fit it is kept whole in front. -/
theorem placeLink_spec (target : Bytes) :
    (placeLink target).1.length = fieldSize ∧
      ((placeLink target).2 = [] ∨ (placeLink target).2 = longText 0x4B target) := by
  have full := Slot.length_fill_blank (linkPieces target)
  unfold placeLink
  rcases filled : Slot.blank.fill (linkPieces target) with ⟨slot, _ | _⟩ <;> rw [filled] at full
  · exact ⟨full, .inr rfl⟩
  · exact ⟨full, .inl rfl⟩

end Placed

end ImageAudit.Tar.Writer
