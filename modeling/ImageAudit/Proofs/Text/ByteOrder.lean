import ImageAudit.Bytes

/-! # Texts in the order of their bytes

Texts are compared character by character, files and reports are ordered byte by byte. The two
agree: of two characters the smaller one has the smaller encoding, and they differ within the
first bytes, so whatever follows does not count.
-/

namespace ImageAudit.Bytes

private theorem toList_loop (data : ByteArray) (position : Nat) (read : Bytes) :
    ByteArray.toList.loop data position read = read.reverse ++ data.data.toList.drop position := by
  fun_induction ByteArray.toList.loop data position read with
  | case1 position read inside ih =>
    have inside' : position < data.data.toList.length := inside
    have byte : data.get! position = data.data.toList[position] := by
      have : data.get! position = data.data[position]! := rfl
      rw [this, getElem!_pos data.data position inside]
      exact (Array.getElem_toList ..).symm
    rw [ih, List.drop_eq_getElem_cons inside', ← byte]
    simp
  | case2 position read outside =>
    have past : data.data.toList.length ≤ position := Nat.le_of_not_lt outside
    rw [List.drop_eq_nil_of_le past, List.append_nil]

theorem ofText_eq_toList (text : String) : ofText text = text.toUTF8.data.toList := by
  rw [ofText, ByteArray.toList, toList_loop, List.reverse_nil, List.nil_append, List.drop_zero]

/-- A text in UTF-8 is its characters in UTF-8, one after the other. -/
theorem ofText_eq_flatMap (text : String) :
    ofText text = text.toList.flatMap String.utf8EncodeChar := by
  have data : (String.ofList text.toList).toUTF8.data.toList =
      text.toList.flatMap String.utf8EncodeChar := by
    change (List.flatMap String.utf8EncodeChar text.toList).toByteArray.data.toList = _
    rw [List.data_toByteArray]
  rw [String.ofList_toList] at data
  rw [ofText_eq_toList, data]

@[simp] theorem length_ofText (text : String) : (ofText text).length = text.utf8ByteSize := by
  rw [ofText_eq_toList]
  rfl

@[simp] theorem ofText_append (left right : String) :
    ofText (left ++ right) = ofText left ++ ofText right := by
  simp [ofText_eq_flatMap]

@[simp] theorem ofText_ofList (cs : List Char) :
    ofText (String.ofList cs) = cs.flatMap String.utf8EncodeChar := by
  rw [ofText_eq_flatMap, String.toList_ofList]

/-- Characters below `0x80` are written in one byte each. -/
theorem flatMap_utf8EncodeChar_ascii {cs : List Char} (ascii : ∀ c ∈ cs, c.toNat < 128) :
    cs.flatMap String.utf8EncodeChar = cs.map fun c => UInt8.ofNat c.toNat := by
  induction cs with
  | nil => rfl
  | cons c cs ih =>
    obtain ⟨first, later⟩ := List.forall_mem_cons.mp ascii
    have small : c.val.toNat ≤ 127 := Nat.le_of_lt_succ first
    have single : String.utf8EncodeChar c = [UInt8.ofNat c.toNat] := by
      simp only [String.utf8EncodeChar, if_pos small]
      rfl
    rw [List.flatMap_cons, List.map_cons, ih later, single]
    rfl

private theorem digits_lt {m n : Nat} (smaller : m < n) :
    m / 262144 < n / 262144 ∨ m / 262144 = n / 262144 ∧
      (m / 4096 % 64 < n / 4096 % 64 ∨ m / 4096 % 64 = n / 4096 % 64 ∧
        (m / 64 % 64 < n / 64 % 64 ∨ m / 64 % 64 = n / 64 % 64 ∧ m % 64 < n % 64)) := by
  rcases Nat.lt_or_ge (m / 262144) (n / 262144) with top | top
  · exact .inl top
  rcases Nat.lt_or_ge (m / 4096) (n / 4096) with upper | upper
  · omega
  rcases Nat.lt_or_ge (m / 64) (n / 64) with lower | lower
  · omega
  · omega

-- Encodings of different widths differ in the first byte; those of one width are the digits of
-- the two characters, so the first digits that differ decide.
private theorem utf8EncodeChar_append_lt {c d : Char} (smaller : c < d) (after after' : Bytes) :
    String.utf8EncodeChar c ++ after < String.utf8EncodeChar d ++ after' := by
  have order : c.val.toNat < d.val.toNat := smaller
  have valid : d.val.toNat < 0x110000 := by
    rcases d.valid with low | high
    · omega
    · exact high.2
  have digits := digits_lt order
  simp only [String.utf8EncodeChar]
  repeat' split
  all_goals simp (disch := omega) only [List.cons_append, List.nil_append, List.cons_lt_cons_iff,
    UInt8.lt_iff_toNat_lt, ← UInt8.toNat_inj, UInt8.toNat_ofNat', Nat.mod_eq_of_lt]
  all_goals omega

private theorem flatMap_utf8EncodeChar_lt {left right : List Char} (smaller : left < right) :
    left.flatMap String.utf8EncodeChar < right.flatMap String.utf8EncodeChar := by
  induction smaller with
  | @nil c rest =>
    obtain ⟨byte, bytes, encoded⟩ := List.exists_cons_of_ne_nil
      (String.utf8EncodeChar_ne_nil (c := c))
    simp only [List.flatMap_nil, List.flatMap_cons, encoded, List.cons_append]
    exact List.nil_lt_cons ..
  | rel first =>
    simp only [List.flatMap_cons]
    exact utf8EncodeChar_append_lt first _ _
  | cons rest ih =>
    simp only [List.flatMap_cons]
    exact List.append_left_lt ih

/-- The smaller text has the smaller bytes. -/
theorem ofText_lt {left right : String} (smaller : left < right) : ofText left < ofText right := by
  rw [ofText_eq_flatMap, ofText_eq_flatMap]
  exact flatMap_utf8EncodeChar_lt smaller

/-- Paths are held in the order of their bytes. -/
theorem ofText_lt_of_compare {left right : String} (before : compare left right = .lt) :
    ofText left < ofText right :=
  ofText_lt (compareOfLessAndEq_eq_lt.mp before)

end ImageAudit.Bytes
