import ImageAudit.Proofs.Rpm.HeaderFields

/-! # Headers read back

Whatever fields are written to a header, and in whatever order, the finished header is parsed, and
each tag has the values of the field that was written last under it. A tag that no field was written
under has none. `Header.parse_finish_reads` is the result.
-/

namespace ImageAudit.Rpm

namespace HeaderField

def texts : HeaderField → List String
  | string _ text => [text]
  | strings _ texts => texts
  | int16 .. | int32 .. | raw _ => []

/-- The field that counts for a tag is one of the fields, under that tag. -/
theorem of_last? {fields : List HeaderField} {tag : Int} {field : HeaderField}
    (last : last? fields tag = some field) : field ∈ fields ∧ field.tag = tag := by
  simpa using List.mem_of_getLast? last

end HeaderField

namespace Header

variable {header : Header} {fields : List HeaderField} {tag : Int}

/-- Under the tag of a field its values are read: the text, all texts and the first of them, or the
numbers with the sign that their width gives them. -/
def ReadsBack (header : Header) : HeaderField → Prop
  | .string tag text => header.string? tag = .ok (some text)
  | .strings tag texts =>
    header.strings? tag = .ok (some texts) ∧ header.string? tag = .ok texts.head?
  | .int16 tag numbers =>
    header.integers? tag = .ok (some (numbers.map fun number => number.toInt16.toInt))
  | .int32 tag numbers =>
    header.integers? tag = .ok (some (numbers.map fun number => number.toInt32.toInt))
  | .raw _ => True

theorem Keeps.readsBack (keeps : header.Keeps fields)
    (noZero : ∀ field ∈ fields, ∀ text ∈ field.texts, '\x00' ∉ text.toList) {field : HeaderField}
    (last : HeaderField.last? fields tag = some field) : header.ReadsBack field := by
  obtain ⟨member, rfl⟩ := HeaderField.of_last? last
  have noZero := noZero field member
  cases field with
  | string tag text =>
    have alone : ∀ value ∈ some text, '\x00' ∉ value.toList := by
      rintro value ⟨⟩
      exact noZero text (List.mem_singleton_self text)
    exact keeps.string? last alone
  | strings tag texts =>
    have all : ∀ values ∈ some texts, ∀ text ∈ values, '\x00' ∉ text.toList := by
      rintro values ⟨⟩
      exact noZero
    exact ⟨keeps.strings? last all, keeps.string?_strings last noZero⟩
  | int16 tag numbers => exact keeps.integers?_int16 (some numbers) last
  | int32 tag numbers => exact keeps.integers?_int32 (some numbers) last
  | raw entry => trivial

/-- Nothing is read under a tag that no entry has. -/
theorem accessors_eq_none (absent : header.entry? tag = none) :
    header.string? tag = .ok none ∧ header.strings? tag = .ok none ∧
      header.integers? tag = .ok none ∧ header.integer? tag = .ok none := by
  have integers : header.integers? tag = .ok none := by rw [integers?, absent]
  refine ⟨?_, ?_, integers, ?_⟩
  · rw [string?, absent]
  · rw [strings?, absent]
  · rw [integer?, integers]
    rfl

/-- Fields with values of their own, under tags that are no region's, are read back from the
finished header: a tag is there exactly when a field was written under it, and then the field that
was written last counts. Under any other tag nothing is read. -/
theorem parse_finish_reads (valued : ∀ field ∈ fields, field.hasValues = true)
    (tags : ∀ field ∈ fields, -0x80000000 ≤ field.tag ∧ field.tag < 0x80000000 ∧
      ¬ (61 ≤ field.tag ∧ field.tag ≤ 63))
    (noZero : ∀ field ∈ fields, ∀ text ∈ field.texts, '\x00' ∉ text.toList)
    (few : fields.length ≤ 65534)
    (small : (HeaderBuilder.ofFields fields).closedStore.length ≤ 0x0fffffff) :
    ∃ header, parse (HeaderBuilder.ofFields fields).finish = .ok header ∧
      (∀ tag, header.has tag = true ↔ ∃ field ∈ fields, field.tag = tag) ∧
      (∀ tag field, HeaderField.last? fields tag = some field → header.ReadsBack field) ∧
      ∀ tag, (∀ field ∈ fields, field.tag ≠ tag) →
        header.string? tag = .ok none ∧ header.strings? tag = .ok none ∧
          header.integers? tag = .ok none ∧ header.integer? tag = .ok none := by
  obtain ⟨header, parsed, keeps, -⟩ := exists_keeps valued tags (Nat.lt_succ_of_le few) small
  refine ⟨header, parsed, fun tag => ?_, fun tag field last => keeps.readsBack noZero last,
    fun tag other => ?_⟩
  · rw [keeps.has, HeaderField.isSome_last?]
  · exact accessors_eq_none (keeps.entry?_eq_none (HeaderField.last?_eq_none other))

section Sample

/-- Two fields share a tag, numbers follow a text of odd length, and the last list is empty. -/
private def sampleFields : List HeaderField :=
  [.string 1000 "old", .int32 1028 [1, 0xFFFFFFFF], .strings 1000 ["new", ""], .int16 1030 [0x8000],
    .strings 1118 []]

/-- The later field counts, and numbers have the sign of their width. -/
theorem parse_finish_reads_sample :
    ∃ header, parse (HeaderBuilder.ofFields sampleFields).finish = .ok header ∧
      header.string? 1000 = .ok (some "new") ∧ header.integers? 1028 = .ok (some [1, -1]) ∧
      header.integers? 1030 = .ok (some [-32768]) ∧ header.strings? 1118 = .ok (some []) ∧
      header.string? 1118 = .ok none ∧ header.has 1118 = true ∧ header.has 62 = false := by
  have small : (HeaderBuilder.ofFields sampleFields).closedStore.length ≤ 0x0fffffff := by
    decide +kernel
  obtain ⟨header, parsed, has, reads, -⟩ := parse_finish_reads (by decide) (by decide) (by decide)
    (show sampleFields.length ≤ 65534 by decide) small
  obtain ⟨-, name⟩ := reads 1000 (.strings 1000 ["new", ""]) (by decide)
  obtain ⟨others, no⟩ := reads 1118 (.strings 1118 []) (by decide)
  refine ⟨header, parsed, name, ?_, ?_, others, no, (has 1118).mpr (by decide), ?_⟩
  · exact reads 1028 (.int32 1028 [1, 0xFFFFFFFF]) (by decide)
  · exact reads 1030 (.int16 1030 [0x8000]) (by decide)
  · rw [Bool.eq_false_iff, Ne, has 62]
    decide

end Sample

end Header

end ImageAudit.Rpm
