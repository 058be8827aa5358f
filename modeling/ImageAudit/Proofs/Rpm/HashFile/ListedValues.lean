import ImageAudit.Proofs.Rpm.HashFile.ChainValue
import ImageAudit.Proofs.Rpm.HashFile.InRange
import ImageAudit.Proofs.Rpm.HashFile.RoundTrip
import ImageAudit.Rpm.Database

/-! # The values that a hash file lists

When a hash file is read, each slot for values whose item gives the place of one yields one value,
as long as the item says, in the order of the pages and of the slots on a page. Nothing else yields
a value. Whatever the bytes of the file are, the reader stays in range, and ends with values or with
a fault of the database.
-/

namespace ImageAudit.Rpm.HashFile

open Fallible

/-- The slots for values of a page whose items give the place of one. Keys and values take turns on
a page that lists them, a key first. -/
def placeSlots (file : HashFile) (number : Nat) : List Nat :=
  if listsItems ((file.pageAt number).byteAt 25) then
    (List.range (file.short (file.pageAt number) 20)).filter fun slot =>
      slot % 2 = 1 ∧ (file.pageAt number).byteAt (file.itemAt number slot) = placeItemType
  else []

/-- The places of values in the file, each by its page and its slot. -/
def allPlaceSlots (file : HashFile) : List (Nat × Nat) :=
  (List.range' 1 file.lastPage).flatMap fun number =>
    (file.placeSlots number).map fun slot => (number, slot)

/-- The slot lists this value, with its length. -/
def ListsValue (file : HashFile) (number slot : Nat) (value : Bytes) : Prop :=
  ∃ first, file.Places number slot first value.length ∧
    file.chainValue first value.length = .ok value

section Slots

variable {file : HashFile} {number : Nat}

/-- A value that is read from a chain has the length that was asked for. -/
theorem length_of_chainValue {first length : Nat} {value : Bytes}
    (read : file.chainValue first length = .ok value) : value.length = length := by
  obtain ⟨pages, -, taken⟩ := bind_eq_ok_iff.mp read
  dsimp only at taken
  split at taken
  · cases taken
  case isFalse enough =>
    rw [← Except.ok.inj taken, List.length_take]
    omega

/-- The odd numbers below an even one. -/
private theorem filter_odd_range (count : Nat) :
    (List.range (2 * count)).filter (fun slot => slot % 2 = 1) =
      (List.range count).map fun pair => 2 * pair + 1 := by
  induction count with
  | zero => rfl
  | succ count ih =>
    have even : 2 * count % 2 = 0 := by omega
    have odd : (2 * count + 1) % 2 = 1 := by omega
    have next : 2 * (count + 1) = 2 * count + 1 + 1 := by omega
    rw [next, List.range_succ, List.range_succ, List.filter_append, List.filter_append, ih,
      List.range_succ, List.map_append]
    simp [even, odd]

/-- Results that are there for the chosen items only are the results of these. -/
private theorem forall₂_filterMap {α β : Type} {R : α → β → Prop} {p : α → Bool} {items : List α}
    {results : List (Option β)}
    (pairs : List.Forall₂ (fun item result => (p item = true → ∃ value, result = some value ∧
      R item value) ∧ (p item = false → result = none)) items results) :
    List.Forall₂ R (items.filter p) (results.filterMap id) := by
  induction pairs with
  | nil => exact .nil
  | @cons item result items results pair _ ih =>
    cases chosen : p item with
    | false =>
      rw [pair.2 chosen, List.filter_cons_of_neg (by simp [chosen]),
        List.filterMap_cons_none rfl]
      exact ih
    | true =>
      obtain ⟨value, rfl, related⟩ := pair.1 chosen
      rw [List.filter_cons_of_pos chosen]
      exact .cons related ih

/-- The value of a slot for values is read when its item gives a place, and no other way. -/
private theorem of_slotValue? {slot : Nat} {result : Option Bytes} (pairs : file.ListsPairs number)
    (odd : slot % 2 = 1) (listed : slot < file.short (file.pageAt number) 20)
    (read : file.slotValue? number (file.pageAt number) slot = .ok result) :
    ((file.pageAt number).byteAt (file.itemAt number slot) = placeItemType →
      ∃ value, result = some value ∧ file.ListsValue number slot value) ∧
    ((file.pageAt number).byteAt (file.itemAt number slot) ≠ placeItemType → result = none) := by
  unfold slotValue? at read
  dsimp only at read
  rw [← itemAt] at read
  split at read
  · cases read
  split at read
  case isTrue other =>
    exact ⟨fun type => absurd type other, fun _ => (Except.ok.inj read).symm⟩
  case isFalse type =>
    have type := Decidable.not_not.mp type
    refine ⟨fun _ => ?_, fun other => absurd type other⟩
    split at read
    · cases read
    case isFalse whole =>
      obtain ⟨value, found, same⟩ := bind_eq_ok_iff.mp read
      have long := length_of_chainValue found
      refine ⟨value, (Except.ok.inj same).symm, _,
        ⟨pairs, odd, listed, Nat.not_lt.mp whole, type, rfl, long.symm⟩, ?_⟩
      rw [long]
      exact found

/-- A page lists nothing, or it is read pair by pair. -/
private theorem of_pageValues {found : List Bytes} (positive : 0 < number)
    (inside : number ≤ file.lastPage) (read : file.pageValues number = .ok found) :
    (listsItems ((file.pageAt number).byteAt 25) = false ∧ found = []) ∨
    file.ListsPairs number ∧ ∃ results, found = results.filterMap id ∧
      List.Forall₂ (fun pair result =>
          file.slotValue? number (file.pageAt number) (2 * pair + 1) = .ok result)
        (List.range (file.short (file.pageAt number) 20 / 2)) results := by
  unfold pageValues at read
  rw [page_of_le inside, ok_bind] at read
  dsimp only at read
  split at read
  case isTrue others => exact .inl ⟨by simpa using others, (Except.ok.inj read).symm⟩
  case isFalse lists =>
    have lists : listsItems ((file.pageAt number).byteAt 25) = true := by simpa using lists
    split at read
    · cases read
    case isFalse even =>
      split at read
      · cases read
      case isFalse index =>
        obtain ⟨results, each, same⟩ := bind_eq_ok_iff.mp read
        exact .inr ⟨⟨positive, inside, lists, Decidable.not_not.mp even, Nat.not_lt.mp index⟩,
          results, (Except.ok.inj same).symm, mapM_eq_ok_iff.mp each⟩

private theorem placeSlots_of_pairs (pairs : file.ListsPairs number) :
    file.placeSlots number =
      ((List.range (file.short (file.pageAt number) 20 / 2)).map fun pair => 2 * pair + 1).filter
        fun slot => (file.pageAt number).byteAt (file.itemAt number slot) = placeItemType := by
  have even := Nat.mul_div_cancel' (Nat.dvd_of_mod_eq_zero pairs.even)
  rw [placeSlots, pairs.lists, if_pos rfl, ← filter_odd_range, even, List.filter_filter]
  refine List.filter_congr fun slot _ => ?_
  rw [Bool.decide_and, Bool.and_comm]

/-- A page yields the values of its slots, in their order. -/
theorem forall₂_placeSlots {found : List Bytes} (positive : 0 < number)
    (inside : number ≤ file.lastPage) (read : file.pageValues number = .ok found) :
    List.Forall₂ (file.ListsValue number) (file.placeSlots number) found := by
  rcases of_pageValues positive inside read with ⟨listsNone, rfl⟩ | ⟨pairs, results, rfl, each⟩
  · rw [placeSlots, listsNone]
    exact .nil
  · rw [placeSlots_of_pairs pairs]
    refine forall₂_filterMap (List.forall₂_map_left_iff.mpr ?_)
    refine ((List.forall₂_and_left _ _).mpr ⟨fun pair => List.mem_range.mp, each⟩).imp ?_
    rintro pair result ⟨below, read⟩
    simp only [decide_eq_true_eq, decide_eq_false_iff_not]
    exact of_slotValue? pairs (by omega) (by omega) read

/-- The file yields the values of its slots, page by page. -/
theorem forall₂_allPlaceSlots {found : List Bytes} (read : file.values = .ok found) :
    List.Forall₂ (fun place value => file.ListsValue place.1 place.2 value) file.allPlaceSlots
      found := by
  obtain ⟨pages, each, same⟩ := bind_eq_ok_iff.mp read
  obtain rfl := Except.ok.inj same
  have counted : List.range' 1 file.lastPage = (List.range file.lastPage).map (· + 1) := by
    rw [List.range'_eq_map_range]
    exact List.map_congr_left fun index _ => Nat.add_comm 1 index
  rw [allPlaceSlots, counted, List.flatMap_map, List.flatMap_def]
  refine List.rel_flatten (List.forall₂_map_left_iff.mpr ?_)
  refine ((List.forall₂_and_left _ _).mpr
    ⟨fun index => List.mem_range.mp, mapM_eq_ok_iff.mp each⟩).imp ?_
  rintro index found ⟨below, read⟩
  rw [List.forall₂_map_left_iff]
  exact forall₂_placeSlots (Nat.succ_pos index) below read

end Slots

/-- Whatever the bytes are, no read, sum or product leaves its range as long as the number of the
declared pages fits 32 bits, and the reader ends with values or with a fault of the database. The
values are those of the slots whose items give a place, each as long as its item says, in the order
of the pages and slots. -/
theorem readValues_inRange {data : Bytes}
    (few : ∀ order, orderOf? data = some order →
      (data.slice 32 4).natIn order < 0xffffffff) :
    (InRange.readValues data).run = some (readValues data) ∧
    (∀ path log,
      (∃ values, readHeadersAt path .berkeleyDb ⟨data, log⟩ = .ok values ∧
        readValues data = .ok values) ∨
      ∃ fault : Fault, readHeadersAt path .berkeleyDb ⟨data, log⟩ =
        .error (.database path fault.message)) ∧
    ∀ values, readValues data = .ok values → ∃ file, parse data = .ok file ∧
      List.Forall₂ (fun place value => file.ListsValue place.1 place.2 value)
        file.allPlaceSlots values := by
  refine ⟨InRange.reaches_readValues few, fun path log => ?_, fun values read => ?_⟩
  · rw [readHeadersAt, readHeaders]
    cases readValues data with
    | ok values => exact .inl ⟨values, rfl, rfl⟩
    | error fault => exact .inr ⟨fault, rfl⟩
  · obtain ⟨file, parsed, listed⟩ := bind_eq_ok_iff.mp read
    exact ⟨file, parsed, forall₂_allPlaceSlots listed⟩

section Sample

/-- Small pages, least significant byte first. -/
private def littleWriter : Writer := ⟨.little, 512⟩

def sampleStored : Bytes := littleWriter.encode [[1, 2, 3]]

/-- The value is read in range; it is listed in the second slot of the only hash page. -/
theorem readValues_inRange_sample :
    (∀ order, orderOf? sampleStored = some order →
        (sampleStored.slice 32 4).natIn order < 0xffffffff) ∧
      (InRange.readValues sampleStored).run = some (.ok [[1, 2, 3]]) ∧
      ∃ file, parse sampleStored = .ok file ∧ file.allPlaceSlots = [(1, 1)] ∧
        file.ListsValue 1 1 [1, 2, 3] := by
  have order : orderOf? sampleStored = some .little := by decide +kernel
  have last : (sampleStored.slice 32 4).natIn .little = 2 := by decide +kernel
  have few : ∀ order, orderOf? sampleStored = some order →
      (sampleStored.slice 32 4).natIn order < 0xffffffff := by
    intro order' found
    rw [order] at found
    rw [← Option.some.inj found, last]
    decide
  have holds : littleWriter.CanHold [[1, 2, 3]] :=
    ⟨⟨9, by decide, by decide, rfl⟩, by decide, by decide, by decide⟩
  have places : (littleWriter.file [[1, 2, 3]]).allPlaceSlots = [(1, 1)] := by decide +kernel
  obtain ⟨run, -, listed⟩ := readValues_inRange few
  obtain ⟨file, parsed, values⟩ := listed _ holds.readValues_encode
  obtain rfl := Except.ok.inj (parsed.symm.trans holds.parse_encode)
  rw [places] at values
  exact ⟨few, run.trans (congrArg some holds.readValues_encode), _, parsed, places,
    (List.forall₂_cons.mp values).1⟩

end Sample

end ImageAudit.Rpm.HashFile
