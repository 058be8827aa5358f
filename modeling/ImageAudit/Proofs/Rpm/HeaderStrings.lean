import ImageAudit.Proofs.Bytes
import ImageAudit.Rpm.Header

/-! # Strings of a header

The strings of a tag lie in the data store one after the other, each ended by a zero byte. Strings
that hold no zero byte themselves are read one by one, whatever follows them.
-/

namespace ImageAudit.Rpm.Header

/-- Strings as they are stored, each with the zero byte that ends it. -/
def terminatedAll (strings : List Bytes) : Bytes := strings.flatMap (· ++ [0])

theorem length_le_terminatedAll (strings : List Bytes) :
    strings.length ≤ (terminatedAll strings).length :=
  Bytes.length_le_flatMap strings fun string => by simp

/-- The next string ends at the first zero byte. -/
theorem takeStrings?_append (read : List String) (count : Nat) {string : Bytes}
    (noZero : 0 ∉ string) (rest : Bytes) :
    takeStrings? read (count + 1) (string ++ 0 :: rest) =
      takeStrings? (Utf8.lossy string :: read) count rest := by
  have inside : ∀ byte ∈ string, (byte != 0) = true := fun byte member =>
    bne_iff_ne.mpr (ne_of_mem_of_not_mem member noZero)
  have ended : (string ++ 0 :: rest).dropWhile (· != 0) = 0 :: rest := by
    rw [List.dropWhile_append_of_pos inside, List.dropWhile_cons_of_neg (by decide)]
  rw [takeStrings?, ended]
  simp only [Bytes.untilZero_append noZero]

private theorem takeStrings?_terminatedAll (read : List String) {strings : List Bytes}
    (noZero : ∀ string ∈ strings, 0 ∉ string) (rest : Bytes) :
    takeStrings? read strings.length (terminatedAll strings ++ rest) =
      some (read.reverse ++ strings.map Utf8.lossy) := by
  induction strings generalizing read with
  | nil => simp [takeStrings?]
  | cons string strings ih =>
    obtain ⟨here, later⟩ := List.forall_mem_cons.mp noZero
    have stored : terminatedAll (string :: strings) ++ rest =
        string ++ 0 :: (terminatedAll strings ++ rest) := by
      simp [terminatedAll]
    rw [stored, List.length_cons, takeStrings?_append _ _ here, ih _ later]
    simp

/-- The strings stand in the data store at a place. -/
def StoredAt (header : Header) (offset : Nat) (strings : List Bytes) : Prop :=
  (∀ string ∈ strings, 0 ∉ string) ∧ terminatedAll strings <+: header.store.drop offset

theorem StoredAt.readStrings {header : Header} {entry : HeaderEntry} {strings : List Bytes}
    (stored : header.StoredAt entry.offset strings) :
    header.readStrings entry strings.length = .ok (strings.map Utf8.lossy) := by
  obtain ⟨noZero, rest, stored⟩ := stored
  have room : ¬ header.store.length - entry.offset < strings.length := by
    have long := length_le_terminatedAll strings
    rw [← List.length_drop, ← stored, List.length_append]
    omega
  rw [Header.readStrings, if_neg room, ← stored, takeStrings?_terminatedAll [] noZero,
    List.reverse_nil, List.nil_append]

/-- A tag keeps these strings: as a list of them, or as the only one. -/
def Records (header : Header) (tag : Int) (strings : List Bytes) : Prop :=
  ∃ entry, header.entry? tag = some entry ∧ header.StoredAt entry.offset strings ∧
    ((entry.type = .stringArray ∨ entry.type = .i18nString) ∧ entry.count = strings.length ∨
      entry.type = .string ∧ strings.length = 1)

/-- The strings that a tag keeps are what is read under it. -/
theorem Records.strings? {header : Header} {tag : Int} {strings : List Bytes}
    (records : header.Records tag strings) :
    header.strings? tag = .ok (some (strings.map Utf8.lossy)) := by
  obtain ⟨entry, found, stored, ⟨type | type, count⟩ | ⟨type, single⟩⟩ := records
  · rw [Header.strings?, found]
    simp only [type, count, stored.readStrings, Except.map]
  · rw [Header.strings?, found]
    simp only [type, count, stored.readStrings, Except.map]
  · rw [Header.strings?, found]
    simp only [type, ← single, stored.readStrings, Except.map]

end ImageAudit.Rpm.Header
