import ImageAudit.Json.Reader
import ImageAudit.Json.Writer
import ImageAudit.Proofs.Text.Utf8
import Mathlib.Tactic.SplitIfs

/-! # Strings in quotes

A string in quotes is read back as it was. The reader takes what one character was written as and
has the bytes of the character then: an escape stands for a character below `0x80`, and any other
character is written as it is and has no byte that means something else in quotes.
-/

namespace ImageAudit.Json

/-- A byte of a string that stands for itself in quotes. -/
def isVerbatim (byte : UInt8) : Prop := 0x20 ≤ byte ∧ byte ≠ 0x22 ∧ byte ≠ 0x5C

theorem readText_verbatim {bytes : Bytes} (verbatim : ∀ byte ∈ bytes, isVerbatim byte)
    (read rest : Bytes) :
    readText none true read (bytes ++ rest) = readText none true (bytes.reverse ++ read) rest := by
  induction bytes generalizing read with
  | nil => rfl
  | cons byte bytes ih =>
    obtain ⟨⟨printable, noQuote, noEscape⟩, later⟩ := List.forall_mem_cons.mp verbatim
    have large : ¬ byte < 0x20 := UInt8.not_lt.mpr printable
    rw [List.cons_append, readText]
    · simp [large, noEscape, ih later]
    · exact noQuote
    · intro a b c d after same
      exact absurd same noEscape
    · intro letter after same
      exact absurd same noEscape

/-- A character that is not escaped has only such bytes. -/
theorem isVerbatim_of_mem_utf8EncodeChar {c : Char} (noQuote : c ≠ '"') (noEscape : c ≠ '\\')
    (printable : 32 ≤ c.toNat) {byte : UInt8} (member : byte ∈ String.utf8EncodeChar c) :
    isVerbatim byte := by
  have stands (small : byte < 0x80) : Char.ofNat byte.toNat = c := by
    have inText : byte ∈ Bytes.ofText (String.singleton c) := by
      simpa [Bytes.ofText_eq_flatMap] using member
    simpa using Utf8.ofNat_mem_of_mem_ofText small inText
  refine ⟨?_, ?_, ?_⟩
  · refine UInt8.not_lt.mp fun control => ?_
    have small : byte < 0x80 := UInt8.lt_trans control (by decide)
    have code : byte.toNat < 32 := UInt8.lt_iff_toNat_lt.mp control
    rw [← stands small, Char.ofNat, dif_pos (Or.inl (by omega))] at printable
    exact absurd printable (Nat.not_le.mpr code)
  · rintro rfl
    exact noQuote (stands (by decide)).symm
  · rintro rfl
    exact noEscape (stands (by decide)).symm

/-- The bytes of an escape of one letter. -/
theorem readText_letter {letter byte : UInt8} (escapes : shortEscape? letter = some byte)
    (read rest : Bytes) :
    readText none true read (0x5C :: letter :: rest) = readText none true (byte :: read) rest := by
  have other : letter ≠ 0x75 := by
    rintro rfl
    cases escapes
  rw [readText]
  · simp [escapes]
  · intro a b c d after same
    exact absurd same other

theorem hexUnit?_control : ∀ n < 32, hexUnit? 0x30 0x30 (UInt8.ofNat (Hex.digit (n / 16)).toNat)
    (UInt8.ofNat (Hex.digit (n % 16)).toNat) = some n := by
  decide

theorem utf8EncodeChar_digit : ∀ n < 16,
    String.utf8EncodeChar (Hex.digit n) = [UInt8.ofNat (Hex.digit n).toNat] := by
  decide

/-- The escape of a control character that no letter stands for. -/
theorem readText_control {c : Char} (control : c.toNat < 32) (read rest : Bytes) :
    readText none true read
      (['\\', 'u', '0', '0', Hex.digit (c.toNat / 16), Hex.digit (c.toNat % 16)].flatMap
        String.utf8EncodeChar ++ rest) =
      readText none true ((String.utf8EncodeChar c).reverse ++ read) rest := by
  have noLead : isLeadSurrogate c.toNat = false := by simp [isLeadSurrogate]; omega
  have noTrail : isTrailSurrogate c.toNat = false := by simp [isTrailSurrogate]; omega
  have pushed : pushChar read c.toNat = (String.utf8EncodeChar c).reverse ++ read := by
    rw [pushChar, Char.ofNat_toNat]
    change (Bytes.ofText (String.singleton c)).reverse ++ read = _
    simp [Bytes.ofText_eq_flatMap]
  have bytes : ['\\', 'u', '0', '0', Hex.digit (c.toNat / 16), Hex.digit (c.toNat % 16)].flatMap
      String.utf8EncodeChar = [0x5C, 0x75, 0x30, 0x30,
        UInt8.ofNat (Hex.digit (c.toNat / 16)).toNat,
        UInt8.ofNat (Hex.digit (c.toNat % 16)).toNat] := by
    simp only [List.flatMap_cons, List.flatMap_nil, List.append_nil,
      utf8EncodeChar_digit _ (show c.toNat / 16 < 16 by omega),
      utf8EncodeChar_digit _ (show c.toNat % 16 < 16 by omega)]
    rfl
  rw [bytes]
  simp only [List.cons_append, List.nil_append]
  rw [readText, hexUnit?_control _ control]
  simp [noLead, noTrail, pushed]

/-- What a character was written as is read as its bytes. -/
theorem readText_escape (c : Char) (read rest : Bytes) :
    readText none true read ((escape c).flatMap String.utf8EncodeChar ++ rest) =
      readText none true ((String.utf8EncodeChar c).reverse ++ read) rest := by
  unfold escape
  split_ifs with quote backslash backspace formFeed lineFeed returns tab control
  · subst quote
    exact readText_letter rfl read rest
  · subst backslash
    exact readText_letter rfl read rest
  · subst backspace
    exact readText_letter rfl read rest
  · subst formFeed
    exact readText_letter rfl read rest
  · subst lineFeed
    exact readText_letter rfl read rest
  · subst returns
    exact readText_letter rfl read rest
  · subst tab
    exact readText_letter rfl read rest
  · exact readText_control control read rest
  · rw [List.flatMap_singleton]
    apply readText_verbatim
    intro byte member
    exact isVerbatim_of_mem_utf8EncodeChar quote backslash (Nat.le_of_not_lt control) member

/-- The bytes of a string in quotes. -/
theorem ofText_quote (content : String) : Bytes.ofText (quote content) =
    0x22 :: ((content.toList.flatMap escape).flatMap String.utf8EncodeChar ++ [0x22]) := by
  have mark : String.utf8EncodeChar '"' = [0x22] := rfl
  rw [quote, Bytes.ofText_ofList, List.cons_append, List.flatMap_cons, List.flatMap_append,
    List.flatMap_singleton, mark]
  rfl

/-- A string in quotes is read back up to the closing quote. -/
theorem readText_quoted (content : String) (rest : Bytes) :
    readText none true []
      ((content.toList.flatMap escape).flatMap String.utf8EncodeChar ++ 0x22 :: rest) =
      some (some content, rest) := by
  have characters (cs : List Char) (read : Bytes) :
      readText none true read ((cs.flatMap escape).flatMap String.utf8EncodeChar ++ 0x22 :: rest) =
        some (Utf8.strict? (read.reverse ++ cs.flatMap String.utf8EncodeChar), rest) := by
    induction cs generalizing read with
    | nil => simp [readText]
    | cons c cs ih =>
      rw [List.flatMap_cons, List.flatMap_append, List.append_assoc, readText_escape, ih]
      simp
  rw [characters, List.reverse_nil, List.nil_append, ← Bytes.ofText_eq_flatMap,
    Utf8.strict?_ofText]

end ImageAudit.Json
