import ImageAudit.Proofs.Rpm.HeaderInRange
import ImageAudit.Rpm.PackageHeader

/-! # Which headers are parsed

A header is parsed exactly when its index and data store are there in a size that may be, and each
entry is sound unless it is that of a region. Otherwise the first thing that is wrong is reported:
the size, then the first unsound entry. What a region holds is never looked at, and neither is what
follows the data store. Of several entries for a tag the last one counts.
-/

namespace ImageAudit.Rpm.Header

open Bytes (slice)
open Fallible

variable {blob : Bytes}

section Acceptance

private theorem passes_of_sound {storeSize : Nat} {entries : List IndexEntry}
    (sound : ∀ entry ∈ entries, entry.isRegion = false → entry.Sound storeSize) :
    ∀ entry ∈ entries.filter (!·.isRegion), ∃ checked, entry.check storeSize = .ok checked := by
  intro entry member
  obtain ⟨listed, noRegion⟩ := List.mem_filter.mp member
  rw [Bool.not_eq_eq_eq_not, Bool.not_true] at noRegion
  obtain ⟨checked, passed, -⟩ := (sound entry listed noRegion).check
  exact ⟨checked, passed⟩

theorem exists_parse_iff : (∃ header, parse blob = .ok header) ↔ Sized blob ∧
    ∀ entry ∈ storedIndex blob, entry.isRegion = false → entry.Sound (declaredStore blob) := by
  constructor
  · rintro ⟨header, parsed⟩
    refine ⟨sized_of_parse parsed, fun entry listed noRegion => ?_⟩
    obtain ⟨-, pairs⟩ := of_parse parsed
    have member : entry ∈ (storedIndex blob).filter (!·.isRegion) :=
      List.mem_filter.mpr ⟨listed, by rw [noRegion]; rfl⟩
    obtain ⟨position, inside, rfl⟩ := List.mem_iff_getElem.mp member
    exact (pairs.get inside (pairs.length_eq ▸ inside)).1
  · rintro ⟨sized, sound⟩
    obtain ⟨entries, checked⟩ := exists_mapM (passes_of_sound sound)
    rw [parse_of_sized sized, checked]
    exact ⟨_, rfl⟩

/-- The first unsound entry that is not of a region decides how the parse fails. -/
theorem parse_of_unsound (sized : Sized blob) {before after : List IndexEntry} {entry : IndexEntry}
    (index : storedIndex blob = before ++ entry :: after)
    (sound : ∀ earlier ∈ before, earlier.isRegion = false → earlier.Sound (declaredStore blob))
    (noRegion : entry.isRegion = false) {fault : HeaderFault}
    (failed : entry.check (declaredStore blob) = .error fault) : parse blob = .error fault := by
  have chosen : (storedIndex blob).filter (!·.isRegion) =
      before.filter (!·.isRegion) ++ entry :: after.filter (!·.isRegion) := by
    rw [index, List.filter_append, List.filter_cons_of_pos (by rw [noRegion]; rfl)]
  have first : ((storedIndex blob).filter (!·.isRegion)).mapM (·.check (declaredStore blob)) =
      .error fault := by
    rw [chosen]
    exact mapM_eq_error (passes_of_sound sound) failed
  rw [parse_of_sized sized, first]
  rfl

end Acceptance

section Entries

variable {header : Header} (parsed : parse blob = .ok header)
include parsed

/-- The entries are those of the index that are not of regions, in its order. -/
theorem map_stored_entries :
    header.entries.map HeaderEntry.stored = (storedIndex blob).filter (!·.isRegion) := by
  have pairs := (of_parse parsed).2.imp fun _ _ related => related.2
  rw [← List.forall₂_eq_eq_eq, List.forall₂_map_left_iff]
  exact pairs.flip.imp fun _ _ same => same

/-- The last entry of a tag counts. -/
theorem entry?_of_parse (tag : Int) : (header.entry? tag).map HeaderEntry.stored =
    ((storedIndex blob).filter fun entry => entry.tag = tag && !entry.isRegion).getLast? := by
  have chosen : (storedIndex blob).filter (fun entry => entry.tag = tag && !entry.isRegion) =
      (header.entries.filter (·.tag = tag)).map HeaderEntry.stored := by
    rw [← List.filter_filter, ← map_stored_entries parsed, List.filter_map]
    rfl
  rw [chosen, List.getLast?_map]
  rfl

theorem has_of_region {tag : Int} (low : 61 ≤ tag) (high : tag ≤ 63) : header.has tag = false := by
  have none : (storedIndex blob).filter (fun entry => entry.tag = tag && !entry.isRegion) = [] := by
    rw [List.filter_eq_nil_iff]
    rintro entry - chosen
    rw [Bool.and_eq_true, decide_eq_true_eq] at chosen
    obtain ⟨rfl, noRegion⟩ := chosen
    simp [IndexEntry.isRegion, low, high] at noRegion
  have found := entry?_of_parse parsed tag
  rw [none, List.getLast?_nil, Option.map_eq_none_iff] at found
  rw [has, found, Option.isSome_none]

end Entries

section Ignored

/-- Another header with the same counts, the same data store, and in the index the same entries
except those that are of regions in both. -/
structure SameButRegions (blob other : Bytes) : Prop where
  counts : slice other 0 8 = slice blob 0 8
  whole : 8 + 16 * declaredCount blob + declaredStore blob ≤ other.length
  store : slice other (8 + 16 * declaredCount blob) (declaredStore blob) =
    slice blob (8 + 16 * declaredCount blob) (declaredStore blob)
  entries : ∀ position < declaredCount blob,
    ((entryAt other position).isRegion = true ∧ (entryAt blob position).isRegion = true) ∨
      slice other (8 + 16 * position) 16 = slice blob (8 + 16 * position) 16

/-- Chosen items are the same where items differ in those only that are not chosen. -/
private theorem filter_map_congr {α β : Type} {p : β → Bool} {f g : α → β} {items : List α}
    (same : ∀ item ∈ items, (p (f item) = false ∧ p (g item) = false) ∨ f item = g item) :
    (items.map f).filter p = (items.map g).filter p := by
  induction items with
  | nil => rfl
  | cons item items ih =>
    have rest := ih fun later member => same later (List.mem_cons_of_mem _ member)
    rw [List.map_cons, List.map_cons, List.filter_cons, List.filter_cons, rest]
    rcases same item (List.mem_cons_self ..) with ⟨left, left'⟩ | equal
    · rw [left, left', if_neg Bool.false_ne_true, if_neg Bool.false_ne_true]
    · rw [equal]

variable {other : Bytes} (same : SameButRegions blob other)
include same

theorem SameButRegions.declaredCount_eq : declaredCount other = declaredCount blob := by
  have counts := congrArg (fun field => (slice field 0 4).natBE) same.counts
  rwa [Bytes.slice_slice _ _ (by decide), Bytes.slice_slice _ _ (by decide)] at counts

theorem SameButRegions.declaredStore_eq : declaredStore other = declaredStore blob := by
  have counts := congrArg (fun field => (slice field 4 4).natBE) same.counts
  rwa [Bytes.slice_slice _ _ (by decide), Bytes.slice_slice _ _ (by decide)] at counts

/-- Neither what a region holds nor what follows the data store counts. -/
theorem SameButRegions.parse_eq (sized : Sized blob) : parse other = parse blob := by
  have count := same.declaredCount_eq
  have store := same.declaredStore_eq
  have sized' : Sized other := by
    refine ⟨?_, count ▸ sized.some, count ▸ sized.few, store ▸ sized.small, ?_⟩
    · have := same.whole
      omega
    · rw [count, store]
      exact same.whole
  have index : (storedIndex other).filter (!·.isRegion) =
      (storedIndex blob).filter (!·.isRegion) := by
    rw [storedIndex, storedIndex, count]
    refine filter_map_congr fun position member => ?_
    rcases same.entries position (List.mem_range.mp member) with ⟨region, region'⟩ | equal
    · exact .inl ⟨by rw [region]; rfl, by rw [region']; rfl⟩
    · right
      rw [entryAt, entryAt, IndexEntry.size, Nat.mul_comm position, equal]
  have data : storedStore other = storedStore blob := by
    rw [storedStore, storedStore, count, store, IndexEntry.size, Nat.mul_comm _ 16, same.store]
  rw [parse_of_sized sized', parse_of_sized sized, index, store, data]

end Ignored

/-- A header is parsed exactly when it is sized well and its entries but those of regions are sound.
It is truncated when it is not; otherwise the first unsound entry is reported, its type before its
offset. In a parsed header the last entry of a tag counts, and the tags of regions have none. The
content of regions and what follows the data store change nothing. No read of the parse, of strings
or of numbers leaves its range. -/
theorem parse_spec (blob : Bytes) :
    ((∃ header, parse blob = .ok header) ↔ Sized blob ∧
      ∀ entry ∈ storedIndex blob, entry.isRegion = false → entry.Sound (declaredStore blob)) ∧
    (¬ Sized blob → ∃ fault, parse blob = .error (.truncated fault)) ∧
    (∀ before entry after, Sized blob → storedIndex blob = before ++ entry :: after →
      (∀ earlier ∈ before, earlier.isRegion = false → earlier.Sound (declaredStore blob)) →
      entry.isRegion = false →
      (9 < entry.type → parse blob = .error (.unknownType entry.tag entry.type)) ∧
      (entry.type ≤ 9 → entry.offset < 0 ∨ (declaredStore blob : Int) < entry.offset →
        parse blob =
          .error (.badEntry entry.tag (.offsetOutside entry.offset (declaredStore blob))))) ∧
    (∀ header, parse blob = .ok header →
      (∀ tag, (header.entry? tag).map HeaderEntry.stored =
        ((storedIndex blob).filter fun entry => entry.tag = tag && !entry.isRegion).getLast?) ∧
      ∀ tag, 61 ≤ tag → tag ≤ 63 → header.has tag = false) ∧
    (∀ other, Sized blob → SameButRegions blob other →
      parse other = parse blob ∧ parsePackage other = parsePackage blob) ∧
    (InRange.parse blob).run = some (parse blob) ∧
    ∀ header, parse blob = .ok header →
      (∀ entry ∈ header.entries, ∀ count,
        (InRange.readStrings header entry count).run = some (header.readStrings entry count)) ∧
      ∀ tag, (InRange.integers? header tag).run = some (header.integers? tag) := by
  refine ⟨exists_parse_iff, parse_of_not_sized, ?_, ?_, ?_, InRange.reaches_parse blob, ?_⟩
  · intro before entry after sized index sound noRegion
    exact ⟨fun unknown => parse_of_unsound sized index sound noRegion
        (IndexEntry.check_of_unknown unknown),
      fun known outside => parse_of_unsound sized index sound noRegion
        (IndexEntry.check_of_outside known outside)⟩
  · intro header parsed
    exact ⟨entry?_of_parse parsed, fun tag => has_of_region parsed⟩
  · intro other sized same
    have equal := same.parse_eq sized
    exact ⟨equal, by rw [parsePackage, parsePackage, equal]⟩
  · intro header parsed
    have bounded := InRange.bounded_of_parse parsed
    exact ⟨fun entry member count => InRange.reaches_readStrings bounded member count,
      InRange.reaches_integers? bounded⟩

section Sample

/-- A header of these entries over a data store of two strings. -/
private def headerOf (index : List IndexEntry) : Bytes :=
  Bytes.ofNatBE 4 index.length ++ Bytes.ofNatBE 4 4 ++ index.flatMap IndexEntry.bytes ++
    [97, 0, 98, 0]

/-- Two entries for one tag behind a region. -/
def sampleBlob : Bytes := headerOf [⟨63, 7, 0, 16⟩, ⟨1000, 6, 0, 1⟩, ⟨1000, 6, 2, 1⟩]

/-- The same entries behind a region of no known type outside the data store, and a byte more. -/
def sampleOther : Bytes := headerOf [⟨62, 77, -5, 0⟩, ⟨1000, 6, 0, 1⟩, ⟨1000, 6, 2, 1⟩] ++ [99]

/-- The second entry counts whatever the region is; where the first is unsound, it is reported. -/
theorem parse_spec_sample :
    (∃ header, parse sampleBlob = .ok header ∧ parse sampleOther = .ok header ∧
      (header.entry? 1000).map HeaderEntry.stored = some ⟨1000, 6, 2, 1⟩) ∧
    parse (headerOf [⟨63, 7, 0, 16⟩, ⟨1000, 10, 5, 1⟩, ⟨1001, 6, 5, 1⟩]) =
      .error (.unknownType 1000 10) := by
  have sized : Sized sampleBlob := by constructor <;> decide +kernel
  have same : SameButRegions sampleBlob sampleOther := by constructor <;> decide +kernel
  have index : storedIndex sampleBlob = [⟨63, 7, 0, 16⟩, ⟨1000, 6, 0, 1⟩, ⟨1000, 6, 2, 1⟩] := by
    decide +kernel
  obtain ⟨accepted, -, -, entries, ignored, -, -⟩ := parse_spec sampleBlob
  obtain ⟨header, parsed⟩ := accepted.mpr ⟨sized, by
    rw [index]
    simp only [List.forall_mem_cons]
    exact ⟨nofun, fun _ => ⟨by decide, by decide, by decide +kernel⟩,
      fun _ => ⟨by decide, by decide, by decide +kernel⟩, nofun⟩⟩
  refine ⟨⟨header, parsed, (ignored _ sized same).1.trans parsed, ?_⟩, ?_⟩
  · rw [(entries header parsed).1, index]
    rfl
  · obtain ⟨-, -, rejected, -⟩ :=
      parse_spec (headerOf [⟨63, 7, 0, 16⟩, ⟨1000, 10, 5, 1⟩, ⟨1001, 6, 5, 1⟩])
    refine (rejected [⟨63, 7, 0, 16⟩] ⟨1000, 10, 5, 1⟩ [⟨1001, 6, 5, 1⟩] ?_ ?_ ?_ rfl).1 (by decide)
    · constructor <;> decide +kernel
    · decide +kernel
    · simp only [List.forall_mem_cons]
      exact ⟨nofun, nofun⟩

end Sample

end ImageAudit.Rpm.Header
