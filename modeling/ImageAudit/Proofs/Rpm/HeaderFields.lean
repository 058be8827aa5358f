import ImageAudit.Proofs.Fallible
import ImageAudit.Proofs.Rpm.HeaderIndex
import ImageAudit.Proofs.Rpm.HeaderStrings
import ImageAudit.Proofs.Text.Utf8
import Mathlib.Data.List.Induction

/-! # Fields of a header

Each field that is written brings values of one type and an entry that says where they stand. What
is written later is put behind, so the values stay where they are; the header that is parsed keeps
every field, and under a tag the values of the last field are read.
-/

namespace ImageAudit.Rpm

/-- What a field brings to a header: under a tag, values of a type, at a multiple of a unit, as many
as counted, in these bytes. -/
inductive HeaderField.Brings :
    HeaderField → Int → EntryType → (unit count : Nat) → Bytes → Prop
  | string (tag : Int) (value : String) :
    Brings (.string tag value) tag .string 1 1 (HeaderBuilder.terminated value)
  | strings (tag : Int) (values : List String) :
    Brings (.strings tag values) tag .stringArray 1 values.length
      (values.flatMap HeaderBuilder.terminated)
  | int16 (tag : Int) (values : List UInt16) :
    Brings (.int16 tag values) tag .int16 2 values.length
      (values.flatMap fun value => Bytes.ofNatBE 2 value.toNat)
  | int32 (tag : Int) (values : List UInt32) :
    Brings (.int32 tag values) tag .int32 4 values.length
      (values.flatMap fun value => Bytes.ofNatBE 4 value.toNat)

namespace HeaderField

def tag : HeaderField → Int
  | string tag _ | strings tag _ | int16 tag _ | int32 tag _ => tag
  | raw entry => entry.tag

def hasValues : HeaderField → Bool
  | raw _ => false
  | _ => true

theorem exists_brings {field : HeaderField} (valued : field.hasValues = true) :
    ∃ type unit count values, field.Brings field.tag type unit count values := by
  cases field with
  | string tag value => exact ⟨_, _, _, _, .string tag value⟩
  | strings tag values => exact ⟨_, _, _, _, .strings tag values⟩
  | int16 tag values => exact ⟨_, _, _, _, .int16 tag values⟩
  | int32 tag values => exact ⟨_, _, _, _, .int32 tag values⟩
  | raw entry => cases valued

section Brings

variable {field : HeaderField} {tag : Int} {type : EntryType} {unit count : Nat} {values : Bytes}
  (brings : field.Brings tag type unit count values)
include brings

theorem Brings.tag_eq : field.tag = tag := by
  cases brings <;> rfl

theorem Brings.add (builder : HeaderBuilder) :
    builder.add field = builder.append tag type.number unit count values := by
  cases brings <;> rfl

/-- A value takes at least one byte. -/
theorem Brings.count_le : count ≤ values.length := by
  cases brings with
  | string tag value => simp [HeaderBuilder.terminated]
  | strings tag values =>
    exact Bytes.length_le_flatMap values fun value => by simp [HeaderBuilder.terminated]
  | int16 tag values => exact Bytes.length_le_flatMap values fun value => by simp
  | int32 tag values => exact Bytes.length_le_flatMap values fun value => by simp

end Brings

end HeaderField

/-- The entry says what the field brings, and the values stand at its place in the data store. -/
def HeaderEntry.StandsFor (store : Bytes) (entry : HeaderEntry) (field : HeaderField) : Prop :=
  ∃ unit values, field.Brings entry.tag entry.type unit entry.count values ∧
    entry.offset ≤ store.length ∧ values <+: store.drop entry.offset

section StandsFor

variable {store : Bytes} {entry : HeaderEntry} {field : HeaderField}
  (stands : entry.StandsFor store field)
include stands

theorem HeaderEntry.StandsFor.tag_eq : field.tag = entry.tag := by
  obtain ⟨unit, values, brings, _⟩ := stands
  exact brings.tag_eq

/-- What is put behind a data store changes none of its entries. -/
theorem HeaderEntry.StandsFor.mono {longer : Bytes} (grown : store <+: longer) :
    entry.StandsFor longer field := by
  obtain ⟨unit, values, brings, inside, placed⟩ := stands
  obtain ⟨rest, rfl⟩ := grown
  refine ⟨unit, values, brings, ?_, ?_⟩
  · rw [List.length_append]
    omega
  · rw [List.drop_append_of_le_length inside]
    exact placed.trans (List.prefix_append ..)

theorem HeaderEntry.StandsFor.fits (low : -0x80000000 ≤ field.tag) (high : field.tag < 0x80000000)
    (noRegion : ¬ (61 ≤ field.tag ∧ field.tag ≤ 63)) : entry.Fits store.length := by
  have tag := stands.tag_eq
  obtain ⟨unit, values, brings, inside, placed⟩ := stands
  refine ⟨tag ▸ low, tag ▸ high, tag ▸ noRegion, inside, ?_⟩
  have count := brings.count_le
  have room := placed.length_le
  rw [List.length_drop] at room
  omega

end StandsFor

namespace HeaderBuilder

/-- The entries of a builder that was given fields with values, each with its field. -/
theorem exists_entries {fields : List HeaderField}
    (valued : ∀ field ∈ fields, field.hasValues = true) :
    ∃ entries : List HeaderEntry,
      (ofFields fields).entries = entries.map HeaderEntry.stored ∧
        List.Forall₂ (HeaderEntry.StandsFor (ofFields fields).store) entries fields := by
  induction fields using List.reverseRecOn with
  | nil => exact ⟨[], rfl, .nil⟩
  | append_singleton fields field ih =>
    obtain ⟨entries, stored, stand⟩ := ih fun field member =>
      valued field (List.mem_append_left _ member)
    obtain ⟨type, unit, count, values, brings⟩ :=
      HeaderField.exists_brings (valued field (List.mem_append_right _ (List.mem_singleton_self _)))
    have added : ofFields (fields ++ [field]) = (ofFields fields).add field := List.foldl_concat ..
    rw [brings.add, append] at added
    rw [added]
    generalize aligned : (ofFields fields).store ++
      Bytes.zeros (Bytes.padding unit (ofFields fields).store.length) = before
    have grown : (ofFields fields).store <+: before ++ values := by
      rw [← aligned]
      exact (List.prefix_append ..).trans (List.prefix_append ..)
    refine ⟨entries ++ [⟨field.tag, type, before.length, count⟩], ?_, ?_⟩
    · rw [List.map_append, ← stored]
      rfl
    · refine List.rel_append (stand.imp fun entry field stands => stands.mono grown)
        (.cons ⟨unit, values, brings, ?_, ?_⟩ .nil)
      · simp
      · simp

end HeaderBuilder

namespace Header

/-- The header has an entry for each field, in order. -/
def Keeps (header : Header) (fields : List HeaderField) : Prop :=
  List.Forall₂ (HeaderEntry.StandsFor header.store) header.entries fields

/-- A finished header is parsed to one that keeps all its fields. -/
theorem exists_keeps {fields : List HeaderField}
    (valued : ∀ field ∈ fields, field.hasValues = true)
    (tags : ∀ field ∈ fields, -0x80000000 ≤ field.tag ∧ field.tag < 0x80000000 ∧
      ¬ (61 ≤ field.tag ∧ field.tag ≤ 63))
    (few : fields.length < maxEntries)
    (small : (HeaderBuilder.ofFields fields).closedStore.length ≤ maxStoreSize) :
    ∃ header, parse (HeaderBuilder.ofFields fields).finish = .ok header ∧ header.Keeps fields ∧
      header.store.length ≤ maxStoreSize := by
  obtain ⟨entries, stored, stand⟩ := HeaderBuilder.exists_entries valued
  have closed := stand.imp fun _ _ stands =>
    stands.mono (HeaderBuilder.ofFields fields).store_prefix_closedStore
  have fits : ∀ entry ∈ entries,
      entry.Fits (HeaderBuilder.ofFields fields).closedStore.length := by
    intro entry member
    obtain ⟨position, inside, rfl⟩ := List.mem_iff_getElem.mp member
    have inside' : position < fields.length := closed.length_eq ▸ inside
    obtain ⟨low, high, noRegion⟩ := tags _ (List.getElem_mem inside')
    exact (closed.get inside inside').fits low high noRegion
  have few' : (HeaderBuilder.ofFields fields).entries.length < maxEntries := by
    rw [stored, List.length_map, stand.length_eq]
    exact few
  exact ⟨_, HeaderBuilder.parse_finish stored fits small few', closed, small⟩

end Header

/-- The field that counts for a tag. -/
def HeaderField.last? (fields : List HeaderField) (tag : Int) : Option HeaderField :=
  (fields.filter (·.tag = tag)).getLast?

namespace Header

section Values

variable {header : Header} {offset : Nat}

/-- Texts without a null character are stored as strings without a zero byte. -/
theorem storedAt_texts (values : List String) (noZero : ∀ value ∈ values, '\x00' ∉ value.toList)
    (placed : values.flatMap HeaderBuilder.terminated <+: header.store.drop offset) :
    header.StoredAt offset (values.map Bytes.ofText) := by
  constructor
  · intro string member zero
    obtain ⟨value, inside, rfl⟩ := List.mem_map.mp member
    exact noZero value inside (Utf8.ofNat_mem_of_mem_ofText (by decide) zero)
  · rw [terminatedAll, List.flatMap_map]
    exact placed

theorem map_lossy_ofText (values : List String) :
    (values.map Bytes.ofText).map Utf8.lossy = values := by
  rw [List.map_map]
  exact (List.map_congr_left fun value _ => Utf8.lossy_ofText value).trans (List.map_id values)

/-- Of the values of a tag the first text is read. -/
theorem string?_of_prefix {tag : Int} {entry : HeaderEntry} {text : String}
    (found : header.entry? tag = some entry)
    (type : entry.type = .string ∨ entry.type = .stringArray) (present : entry.count ≠ 0)
    (noZero : '\x00' ∉ text.toList)
    (placed : HeaderBuilder.terminated text <+: header.store.drop entry.offset) :
    header.string? tag = .ok (some text) := by
  have stored : header.StoredAt entry.offset [Bytes.ofText text] :=
    storedAt_texts [text] (by simpa using noZero)
      (by simpa only [List.flatMap_singleton] using placed)
  have read : header.readStrings entry 1 = .ok [Utf8.lossy (Bytes.ofText text)] :=
    stored.readStrings
  rw [Header.string?, found]
  rcases type with type | type <;>
    simp [type, present, read, Except.map, Utf8.lossy_ofText]

/-- Numbers of one width are read one by one. -/
theorem integers?_of_prefix {tag : Int} {entry : HeaderEntry} (width : Nat) (numbers : List Nat)
    (found : header.entry? tag = some entry) (type : entry.type.integerWidth? = some width)
    (fits : ∀ number ∈ numbers, number < 256 ^ width) (count : entry.count = numbers.length)
    (inside : entry.offset ≤ header.store.length)
    (placed : numbers.flatMap (Bytes.ofNatBE width) <+: header.store.drop entry.offset) :
    header.integers? tag = .ok (some (numbers.map (Bytes.signed width))) := by
  have positive : 0 < width := by
    revert type
    cases entry.type <;> simp [EntryType.integerWidth?] <;> omega
  have sizes : ∀ piece ∈ numbers.map (Bytes.ofNatBE width), piece.length = width := by
    intro piece member
    obtain ⟨number, _, rfl⟩ := List.mem_map.mp member
    exact Bytes.length_ofNatBE ..
  have long : (numbers.flatMap (Bytes.ofNatBE width)).length = entry.count * width := by
    rw [List.flatMap_def, Bytes.length_flatten_of_sizes sizes, List.length_map, count]
  have room : ¬ header.store.length < entry.offset + entry.count * width := by
    have := placed.length_le
    rw [long, List.length_drop] at this
    omega
  have values : ((numbers.map (Bytes.ofNatBE width)).map fun value =>
      Bytes.signed width value.natBE) = numbers.map (Bytes.signed width) := by
    rw [List.map_map]
    exact List.map_congr_left fun number member => by
      rw [Function.comp_apply, Bytes.natBE_ofNatBE (fits number member)]
  rw [Header.integers?, found]
  simp only [type]
  rw [if_neg room, Bytes.slice_of_prefix long placed, List.flatMap_def,
    Bytes.toList_chunks_flatten positive sizes, values]

end Values

section Keeps

variable {header : Header} {fields : List HeaderField} (keeps : header.Keeps fields)
include keeps

/-- The entry that counts for a tag stands for the field that does. -/
theorem Keeps.entry? (tag : Int) :
    Option.Rel (HeaderEntry.StandsFor header.store) (header.entry? tag)
      (HeaderField.last? fields tag) := by
  rw [Header.entry?, HeaderField.last?, List.getLast?_filter, List.getLast?_filter]
  refine Fallible.rel_find? (List.rel_reverse keeps) ?_
  intro entry field stands
  rw [stands.tag_eq]

variable {tag : Int}

theorem Keeps.entry?_eq_none (absent : HeaderField.last? fields tag = none) :
    header.entry? tag = none := by
  have related := keeps.entry? tag
  rw [absent] at related
  cases found : header.entry? tag with
  | none => rfl
  | some entry => rw [found] at related; cases related

theorem Keeps.exists_entry? {field : HeaderField}
    (found : HeaderField.last? fields tag = some field) :
    ∃ entry, header.entry? tag = some entry ∧ entry.StandsFor header.store field := by
  have related := keeps.entry? tag
  rw [found] at related
  cases found' : header.entry? tag with
  | none => rw [found'] at related; cases related
  | some entry =>
    rw [found'] at related
    cases related with
    | some stands => exact ⟨entry, rfl, stands⟩

theorem Keeps.has (tag : Int) :
    header.has tag = (HeaderField.last? fields tag).isSome := by
  rw [Header.has]
  cases found : HeaderField.last? fields tag with
  | none => rw [keeps.entry?_eq_none found, Option.isSome_none, Option.isSome_none]
  | some field =>
    obtain ⟨entry, found, _⟩ := keeps.exists_entry? found
    rw [found, Option.isSome_some, Option.isSome_some]

/-- There are no more strings than bytes. -/
theorem Keeps.length_le {texts : List String}
    (found : HeaderField.last? fields tag = some (.strings tag texts)) :
    texts.length ≤ header.store.length := by
  obtain ⟨⟨tag, type, offset, count⟩, _, unit, stored, brings, inside, placed⟩ :=
    keeps.exists_entry? found
  cases brings
  have count := (HeaderField.Brings.strings tag texts).count_le
  have room := placed.length_le
  rw [List.length_drop] at room
  omega

/-- A tag has the text that was written last under it; none where nothing was. -/
theorem Keeps.string? {value : Option String}
    (found : HeaderField.last? fields tag = value.map (.string tag))
    (noZero : ∀ text ∈ value, '\x00' ∉ text.toList) : header.string? tag = .ok value := by
  cases value with
  | none => rw [Header.string?, keeps.entry?_eq_none found]
  | some text =>
    obtain ⟨⟨tag, type, offset, count⟩, found, unit, values, brings, inside, placed⟩ :=
      keeps.exists_entry? found
    cases brings
    exact string?_of_prefix found (.inl rfl) Nat.one_ne_zero (noZero text rfl) placed

theorem Keeps.strings? {values : Option (List String)}
    (found : HeaderField.last? fields tag = values.map (.strings tag))
    (noZero : ∀ texts ∈ values, ∀ text ∈ texts, '\x00' ∉ text.toList) :
    header.strings? tag = .ok values := by
  cases values with
  | none => rw [Header.strings?, keeps.entry?_eq_none found]
  | some texts =>
    obtain ⟨⟨tag, type, offset, count⟩, found, unit, stored, brings, inside, placed⟩ :=
      keeps.exists_entry? found
    cases brings
    have records : header.Records tag (texts.map Bytes.ofText) :=
      ⟨_, found, storedAt_texts texts (noZero texts rfl) placed,
        .inl ⟨.inl rfl, (List.length_map _).symm⟩⟩
    rw [records.strings?, map_lossy_ofText]

/-- Of several texts the first one is the text of the tag. -/
theorem Keeps.string?_strings {texts : List String}
    (found : HeaderField.last? fields tag = some (.strings tag texts))
    (noZero : ∀ text ∈ texts, '\x00' ∉ text.toList) :
    header.string? tag = .ok texts.head? := by
  obtain ⟨⟨tag, type, offset, count⟩, found, unit, stored, brings, inside, placed⟩ :=
    keeps.exists_entry? found
  cases brings
  cases texts with
  | nil =>
    rw [Header.string?, found]
    rfl
  | cons text others =>
    rw [List.flatMap_cons] at placed
    exact string?_of_prefix found (.inr rfl) (Nat.succ_ne_zero _)
      (noZero text (List.mem_cons_self ..)) ((List.prefix_append ..).trans placed)

/-- Numbers are read with their sign, whatever sign they were written with. -/
theorem Keeps.integers?_int16 (values : Option (List UInt16))
    (found : HeaderField.last? fields tag = values.map (.int16 tag)) :
    header.integers? tag =
      .ok (values.map fun numbers => numbers.map fun number => number.toInt16.toInt) := by
  cases values with
  | none => rw [Header.integers?, keeps.entry?_eq_none found, Option.map_none]
  | some numbers =>
    obtain ⟨⟨tag, type, offset, count⟩, found, unit, stored, brings, inside, placed⟩ :=
      keeps.exists_entry? found
    cases brings
    have read := integers?_of_prefix 2 (numbers.map UInt16.toNat) found rfl
      (by simpa using fun number _ => number.toNat_lt) (by simp) inside
      (by simpa only [List.flatMap_map] using placed)
    rw [read, List.map_map, Option.map_some]
    simp only [Function.comp_def, Bytes.signed_toNat_uint16]

theorem Keeps.integers?_int32 (values : Option (List UInt32))
    (found : HeaderField.last? fields tag = values.map (.int32 tag)) :
    header.integers? tag =
      .ok (values.map fun numbers => numbers.map fun number => number.toInt32.toInt) := by
  cases values with
  | none => rw [Header.integers?, keeps.entry?_eq_none found, Option.map_none]
  | some numbers =>
    obtain ⟨⟨tag, type, offset, count⟩, found, unit, stored, brings, inside, placed⟩ :=
      keeps.exists_entry? found
    cases brings
    have read := integers?_of_prefix 4 (numbers.map UInt32.toNat) found rfl
      (by simpa using fun number _ => number.toNat_lt) (by simp) inside
      (by simpa only [List.flatMap_map] using placed)
    rw [read, List.map_map, Option.map_some]
    simp only [Function.comp_def, Bytes.signed_toNat_uint32]

end Keeps

end Header

namespace HeaderField

@[simp] theorem last?_nil (tag : Int) : last? [] tag = none := rfl

theorem last?_append (fields others : List HeaderField) (tag : Int) :
    last? (fields ++ others) tag = (last? others tag).or (last? fields tag) := by
  rw [last?, List.filter_append, List.getLast?_append]
  rfl

theorem last?_cons (field : HeaderField) (fields : List HeaderField) (tag : Int) :
    last? (field :: fields) tag =
      (last? fields tag).or (if field.tag = tag then some field else none) := by
  rw [← List.singleton_append, last?_append]
  by_cases same : field.tag = tag <;> simp [last?, same]

theorem last?_eq_none {fields : List HeaderField} {tag : Int}
    (other : ∀ field ∈ fields, field.tag ≠ tag) : last? fields tag = none := by
  rw [last?, List.getLast?_eq_none_iff, List.filter_eq_nil_iff]
  simpa using other

theorem isSome_last? (fields : List HeaderField) (tag : Int) :
    (last? fields tag).isSome = true ↔ ∃ field ∈ fields, field.tag = tag := by
  rw [last?, ← Option.ne_none_iff_isSome, Ne, List.getLast?_eq_none_iff, List.filter_eq_nil_iff]
  simp

/-- A field that is written only where there is a value. -/
theorem last?_toList {α : Type} (write : α → HeaderField) {own : Int}
    (tags : ∀ value, (write value).tag = own) (value : Option α) (tag : Int) :
    last? (value.map write).toList tag = if own = tag then value.map write else none := by
  cases value with
  | none => simp
  | some value => simp [last?_cons, tags]

end HeaderField

end ImageAudit.Rpm
