import ImageAudit.Proofs.Ranged
import ImageAudit.Proofs.Rpm.StoredIndex

/-! # Reads of a header stay in range

Here a header is parsed and its values are read by steps that may leave their range: numbers and
fields are cut out of the bytes, and offsets are sums, products and differences of machine words.
The two counts at the front are checked before the index is read, and an offset when its entry is,
so each step meets its range.
-/

namespace ImageAudit.Rpm

open Bytes (slice)
open Fallible Ranged

namespace Header

namespace InRange

/-- The entry at a position of the index, unless it is that of a region. -/
def entry (blob : Bytes) (storeSize position : Nat) : Ranged HeaderFault (Option HeaderEntry) := do
  let width ← product position IndexEntry.size
  let place ← sum 8 width
  let tag ← number .big 4 blob place
  let type ← number .big 4 blob (← sum place 4)
  let offset ← number .big 4 blob (← sum place 8)
  let count ← number .big 4 blob (← sum place 12)
  let stored : IndexEntry := ⟨Bytes.signed 4 tag, type, Bytes.signed 4 offset, count⟩
  if stored.isRegion then return none
  return some (← stored.check storeSize)

def parse (blob : Bytes) : Ranged HeaderFault Header := do
  if blob.length < 8 then throw (.truncated (.noCounts blob.length))
  let count ← number .big 4 blob 0
  let storeSize ← number .big 4 blob 4
  if count = 0 ∨ maxEntries < count then throw (.truncated (.indexCount count))
  if maxStoreSize < storeSize then throw (.truncated (.storeSize storeSize))
  let width ← product count IndexEntry.size
  let storeStart ← sum 8 width
  let storeEnd ← sum storeStart storeSize
  if blob.length < storeEnd then throw (.truncated (.cutShort blob.length storeEnd))
  let store ← between blob storeStart storeEnd
  let entries ← (List.range count).mapM fun position => entry blob storeSize position
  return ⟨entries.filterMap id, store⟩

/-- The strings read so far, last first, then `count` more from a place on. -/
def takeStrings (tag : Int) (store : Bytes) (read : List String) :
    Nat → Nat → Ranged HeaderFault (List String)
  | 0, _ => return read.reverse
  | count + 1, place => do
    let rest ← between store place store.length
    match rest.findIdx? (· == 0) with
    | none => throw (.badEntry tag .unterminated)
    | some length =>
      let text ← between rest 0 length
      let behind ← sum length 1
      let next ← sum place behind
      takeStrings tag store (Utf8.lossy text :: read) count next

def readStrings (header : Header) (entry : HeaderEntry) (count : Nat) :
    Ranged HeaderFault (List String) := do
  let room ← difference header.store.length entry.offset
  if room < count then throw (.badEntry entry.tag (.tooManyStrings count))
  takeStrings entry.tag header.store [] count entry.offset

/-- The string of a tag; the first one where there are several. -/
def string? (header : Header) (tag : Int) : Ranged HeaderFault (Option String) := do
  match header.entry? tag with
  | none => return none
  | some entry =>
    match entry.type with
    | .string | .stringArray | .i18nString =>
      if entry.count = 0 then return none
      let strings ← readStrings header entry 1
      return strings.head?
    | found => throw (.badEntry tag (.notString found))

def strings? (header : Header) (tag : Int) : Ranged HeaderFault (Option (List String)) := do
  match header.entry? tag with
  | none => return none
  | some entry =>
    match entry.type with
    | .stringArray | .i18nString => return some (← readStrings header entry entry.count)
    | .string => return some (← readStrings header entry 1)
    | found => throw (.badEntry tag (.notStringArray found))

/-- The numbers of a tag, whatever their width. -/
def integers? (header : Header) (tag : Int) : Ranged HeaderFault (Option (List Int)) := do
  match header.entry? tag with
  | none => return none
  | some entry =>
    match entry.type.integerWidth? with
    | none => throw (.badEntry tag (.notInteger entry.type))
    | some width =>
      -- A product that outgrows its word is a fault here, and not out of range.
      match product entry.count width with
      | none => throw (.badEntry tag (.valuesOverrun entry.count))
      | some length =>
        let stop ← sum entry.offset length
        if header.store.length < stop then throw (.badEntry tag (.valuesOverrun entry.count))
        let field ← between header.store entry.offset stop
        let values ← (Bytes.chunks width field).toList.mapM fun value =>
          (number .big width value 0 : Ranged HeaderFault Nat)
        return some (values.map (Bytes.signed width))

section Parsing

variable {blob : Bytes}

/-- An entry that is not that of a region, checked. -/
private def checked? (storeSize : Nat) (stored : IndexEntry) :
    Except HeaderFault (Option HeaderEntry) :=
  if stored.isRegion then .ok none else (stored.check storeSize).map some

private theorem mapM_check_eq (storeSize : Nat) :
    ((storedIndex blob).filter (!·.isRegion)).mapM (·.check storeSize) =
      ((List.range (declaredCount blob)).mapM fun position =>
        checked? storeSize (entryAt blob position)).map (List.filterMap id) := by
  rw [mapM_filter, storedIndex, List.mapM_map]
  rfl

section Sized

variable (sized : Sized blob)
include sized

/-- A number of an entry is read. -/
private theorem number_entry {position : Nat} (below : position < declaredCount blob) (offset : Nat)
    (inside : offset + 4 ≤ IndexEntry.size) :
    number .big 4 blob (8 + position * IndexEntry.size + offset) =
      some (slice (slice blob (8 + position * IndexEntry.size) IndexEntry.size)
        offset 4).natBE := by
  have whole := sized.whole
  have few := sized.few
  simp only [IndexEntry.size] at inside ⊢
  rw [number_of_le .big (by omega) (by omega), Bytes.slice_slice _ _ inside]
  rfl

private theorem reaches_entry {position : Nat} (below : position < declaredCount blob) :
    Reaches (InRange.entry blob (declaredStore blob) position)
      (checked? (declaredStore blob) (entryAt blob position)) := by
  have bound : position * IndexEntry.size ≤ 0xffff * 16 :=
    Nat.mul_le_mul_right _ (Nat.le_of_lt (Nat.lt_of_lt_of_le below sized.few))
  unfold InRange.entry checked?
  refine Reaches.read (word_of_lt (by omega)) (Reaches.read (word_of_lt (by omega)) ?_)
  refine Reaches.read (number_entry sized below 0 (by decide)) ?_
  refine Reaches.read (word_of_lt (by omega)) ?_
  refine Reaches.read (number_entry sized below 4 (by decide)) ?_
  refine Reaches.read (word_of_lt (by omega)) ?_
  refine Reaches.read (number_entry sized below 8 (by decide)) ?_
  refine Reaches.read (word_of_lt (by omega)) ?_
  refine Reaches.read (number_entry sized below 12 (by decide)) ?_
  refine Reaches.ite (fun _ => reaches_pure _) fun _ => ?_
  have same : ((entryAt blob position).check (declaredStore blob)).map some =
      (entryAt blob position).check (declaredStore blob) >>= fun entry => .ok (some entry) := by
    cases (entryAt blob position).check (declaredStore blob) <;> rfl
  rw [same]
  exact (reaches_checked _).bind fun entry _ => reaches_pure _

end Sized

theorem reaches_parse (blob : Bytes) : Reaches (InRange.parse blob) (Header.parse blob) := by
  rw [InRange.parse, parse_eq]
  refine Reaches.guard fun counts => ?_
  have front := Nat.not_lt.mp counts
  have count : number .big 4 blob 0 = some (declaredCount blob) :=
    number_of_le .big (by omega) (by decide)
  have storeSize : number .big 4 blob 4 = some (declaredStore blob) :=
    number_of_le .big (by omega) (by decide)
  refine Reaches.read count (Reaches.read storeSize ?_)
  refine Reaches.guard fun someEntries => ?_
  refine Reaches.guard fun small => ?_
  have few : declaredCount blob ≤ 0xffff := Nat.not_lt.mp (not_or.mp someEntries).2
  have bound : declaredCount blob * IndexEntry.size ≤ 0xffff * 16 := Nat.mul_le_mul_right _ few
  have room : declaredStore blob ≤ 0x0fffffff := Nat.not_lt.mp small
  refine Reaches.read (word_of_lt (by omega)) (Reaches.read (word_of_lt (by omega)) ?_)
  refine Reaches.read (word_of_lt (by omega)) ?_
  refine Reaches.guard fun whole => ?_
  have sized := sized_of_not counts someEntries small whole
  have store := between_of_le (Nat.le_add_right _ (declaredStore blob)) (Nat.not_lt.mp whole)
  rw [Nat.add_sub_cancel_left] at store
  refine Reaches.read store ?_
  rw [map_chunks_index sized, mapM_check_eq, map_then]
  refine Reaches.bind (Reaches.mapM fun position member => ?_) fun entries _ => reaches_pure _
  exact reaches_entry sized (List.mem_range.mp member)

end Parsing

section Values

/-- The values of each entry begin in the data store, and all numbers fit 32 bits. -/
structure Bounded (header : Header) : Prop where
  store : header.store.length ≤ 0x0fffffff
  offset : ∀ entry ∈ header.entries, entry.offset ≤ header.store.length
  count : ∀ entry ∈ header.entries, entry.count < 0x100000000

theorem count_lt (stored : Bytes) : (IndexEntry.ofBytes stored).count < 0x100000000 := by
  have digits := Bytes.natIn_lt .big (slice stored 12 4)
  exact Nat.lt_of_lt_of_le digits (Nat.pow_le_pow_right (by decide) (List.length_take_le ..))

theorem bounded_of_parse {blob : Bytes} {header : Header}
    (parsed : Header.parse blob = .ok header) : Bounded header := by
  have sized := sized_of_parse parsed
  have whole := sized.whole
  obtain ⟨store, pairs⟩ := of_parse parsed
  have long : header.store.length = declaredStore blob := by
    rw [store, storedStore]
    simp only [IndexEntry.size]
    exact Bytes.length_slice (by omega)
  have stored {entry : HeaderEntry} (member : entry ∈ header.entries) :
      entry.stored.Sound (declaredStore blob) ∧
        ∃ position, entry.stored = entryAt blob position := by
    obtain ⟨position, inside, rfl⟩ := List.mem_iff_getElem.mp member
    have inside' := pairs.length_eq.symm ▸ inside
    obtain ⟨sound, same⟩ := pairs.get inside' inside
    rw [List.get_eq_getElem, List.get_eq_getElem] at same
    have listed := (List.mem_filter.mp (List.getElem_mem inside')).1
    obtain ⟨place, -, found⟩ := List.mem_map.mp listed
    exact ⟨same ▸ sound, place, same.trans found.symm⟩
  refine ⟨long ▸ sized.small, fun entry member => ?_, fun entry member => ?_⟩
  · have high := (stored member).1.high
    rw [long]
    exact Int.ofNat_le.mp high
  · obtain ⟨place, same⟩ := (stored member).2
    have counted : entry.count = (entryAt blob place).count := congrArg IndexEntry.count same
    rw [counted]
    exact count_lt _

theorem mem_of_entry? {header : Header} {tag : Int} {entry : HeaderEntry}
    (found : header.entry? tag = some entry) : entry ∈ header.entries :=
  (List.mem_filter.mp (List.mem_of_getLast? found)).1

/-- The next string ends at the first zero byte. -/
private theorem takeStrings?_succ (read : List String) (count : Nat) (data : Bytes) :
    takeStrings? read (count + 1) data =
      match data.findIdx? (· == 0) with
      | none => none
      | some length =>
        takeStrings? (Utf8.lossy (data.take length) :: read) count (data.drop (length + 1)) := by
  have zero : (fun byte : UInt8 => !(byte != 0)) = (· == 0) := by
    funext byte
    rw [bne, Bool.not_not]
  rw [takeStrings?, Bytes.untilZero, List.takeWhile_eq_take_findIdx_not,
    List.dropWhile_eq_drop_findIdx_not, zero]
  cases found : data.findIdx? (· == 0) with
  | none =>
    have all := List.findIdx_eq_length_of_false (List.findIdx?_eq_none_iff.mp found)
    rw [all, List.drop_length]
  | some length =>
    obtain ⟨inside, index⟩ := List.findIdx?_eq_some_iff_findIdx_eq.mp found
    rw [index, List.drop_eq_getElem_cons inside]

/-- The strings are found where the data behind the place says. -/
private theorem reaches_takeStrings (tag : Int) {store : Bytes} (small : store.length ≤ 0x0fffffff)
    (read : List String) (count : Nat) {place : Nat} (inside : place ≤ store.length) :
    Reaches (InRange.takeStrings tag store read count place)
      (match takeStrings? read count (store.drop place) with
        | some strings => .ok strings
        | none => .error (.badEntry tag .unterminated)) := by
  induction count generalizing read place with
  | zero => exact reaches_pure _
  | succ count ih =>
    have rest : between store place store.length = some (store.drop place) := by
      rw [between_of_le inside (Nat.le_refl _), Bytes.slice_rest]
    refine Reaches.read rest ?_
    rw [takeStrings?_succ]
    cases found : (store.drop place).findIdx? (· == 0) with
    | none => exact reaches_throw _
    | some length =>
      obtain ⟨before, -⟩ := List.findIdx?_eq_some_iff_findIdx_eq.mp found
      refine Reaches.read (between_of_le (Nat.zero_le _) (Nat.le_of_lt before)) ?_
      rw [List.length_drop] at before
      refine Reaches.read (word_of_lt (by omega)) (Reaches.read (word_of_lt (by omega)) ?_)
      dsimp only
      rw [List.drop_drop]
      exact ih _ (by omega)

/-- Numbers of one width are read from the pieces of that width. -/
private theorem reaches_numbers {field : Bytes} {width count : Nat} (positive : 0 < width)
    (narrow : width ≤ 8) (long : field.length = count * width) :
    Reaches ((Bytes.chunks width field).toList.mapM fun value =>
        (number .big width value 0 : Ranged HeaderFault Nat))
      (.ok ((Bytes.chunks width field).toList.map Bytes.natBE)) := by
  have each : Reaches ((Bytes.chunks width field).toList.mapM fun value =>
        (number .big width value 0 : Ranged HeaderFault Nat))
      ((Bytes.chunks width field).toList.mapM fun value => .ok value.natBE) := by
    refine Reaches.mapM fun piece member => ?_
    rw [Bytes.toList_chunks_of_length positive long] at member
    obtain ⟨index, listed, rfl⟩ := List.mem_map.mp member
    have inside : index * width + width ≤ field.length := by
      rw [long, ← Nat.succ_mul]
      exact Nat.mul_le_mul_right _ (List.mem_range.mp listed)
    have size := Bytes.length_slice inside
    refine reaches_read ((number_of_le .big (by omega) (by omega)).trans ?_)
    rw [Bytes.slice_self size]
    rfl
  have all : (Bytes.chunks width field).toList.mapM (fun value =>
      (.ok value.natBE : Except HeaderFault Nat)) =
        .ok ((Bytes.chunks width field).toList.map Bytes.natBE) := List.mapM_pure
  rwa [all] at each

theorem integerWidth?_bounds {type : EntryType} {width : Nat}
    (integer : type.integerWidth? = some width) : 0 < width ∧ width ≤ 8 := by
  cases type <;> cases integer <;> decide

section Accessors

variable {header : Header} (bounded : Bounded header)
include bounded

theorem reaches_readStrings {entry : HeaderEntry} (member : entry ∈ header.entries) (count : Nat) :
    Reaches (InRange.readStrings header entry count) (header.readStrings entry count) := by
  have inside := bounded.offset entry member
  refine Reaches.read (difference_of_le inside) (Reaches.guard fun _ => ?_)
  exact reaches_takeStrings entry.tag bounded.store [] count inside

theorem reaches_string? (tag : Int) :
    Reaches (InRange.string? header tag) (header.string? tag) := by
  unfold InRange.string? Header.string?
  cases found : header.entry? tag with
  | none => exact reaches_pure _
  | some entry =>
    have member := mem_of_entry? found
    have first := reaches_readStrings bounded member 1
    dsimp only
    cases entry.type with
    | string | stringArray | i18nString =>
      exact Reaches.ite (fun _ => reaches_pure _) fun _ => first.map List.head?
    | _ => exact reaches_throw _

theorem reaches_strings? (tag : Int) :
    Reaches (InRange.strings? header tag) (header.strings? tag) := by
  unfold InRange.strings? Header.strings?
  cases found : header.entry? tag with
  | none => exact reaches_pure _
  | some entry =>
    have member := mem_of_entry? found
    have strings := reaches_readStrings bounded member
    dsimp only
    cases entry.type with
    | stringArray | i18nString => exact (strings entry.count).map some
    | string => exact (strings 1).map some
    | _ => exact reaches_throw _

theorem reaches_integers? (tag : Int) :
    Reaches (InRange.integers? header tag) (header.integers? tag) := by
  unfold InRange.integers? Header.integers?
  cases found : header.entry? tag with
  | none => exact reaches_pure _
  | some entry =>
    dsimp only
    cases integer : entry.type.integerWidth? with
    | none => exact reaches_throw _
    | some width =>
      have member := mem_of_entry? found
      have offset := bounded.offset entry member
      have count := bounded.count entry member
      have small := bounded.store
      obtain ⟨positive, narrow⟩ := integerWidth?_bounds integer
      have bound : entry.count * width ≤ 0xffffffff * 8 := Nat.mul_le_mul (by omega) narrow
      have length : product entry.count width = some (entry.count * width) :=
        word_of_lt (by omega)
      dsimp only
      rw [length]
      refine Reaches.read (word_of_lt (by omega)) (Reaches.guard fun overruns => ?_)
      have inside := Nat.not_lt.mp overruns
      refine Reaches.read (between_of_le (Nat.le_add_right ..) inside) ?_
      rw [Nat.add_sub_cancel_left]
      refine (reaches_numbers positive narrow (Bytes.length_slice inside)).onward ?_
      rw [List.map_map]
      exact reaches_pure _

end Accessors

end Values

end InRange

end Header

end ImageAudit.Rpm
