import ImageAudit.Proofs.Text.ByteOrder
import ImageAudit.Text.Utf8

/-! # Encoding and decoding text

A text in UTF-8 is read back as it was. Bytes that encode no text are still cut at each byte below
`0x80`: such a byte is a character of its own and belongs to no other, whatever stands around it.
So decoding distributes over the parts before and after it, and an ASCII character is read exactly
where its byte stands.
-/

namespace ImageAudit.Utf8

private theorem isTail_iff (byte : UInt8) :
    isTail byte = true ↔ 0x80 ≤ byte.toNat ∧ byte.toNat ≤ 0xBF := by
  simp [isTail, UInt8.le_iff_toNat_le]

private theorem isSecond_iff (first second : UInt8) :
    isSecond first second = true ↔ isTail second = true ∧
      (first.toNat = 0xE0 → 0xA0 ≤ second.toNat) ∧ (first.toNat = 0xED → second.toNat ≤ 0x9F) ∧
      (first.toNat = 0xF0 → 0x90 ≤ second.toNat) ∧ (first.toNat = 0xF4 → second.toNat ≤ 0x8F) := by
  simp only [isSecond, isTail_iff, ← UInt8.toNat_inj, UInt8.reduceToNat]
  repeat' split
  all_goals simp only [Bool.and_eq_true, decide_eq_true_eq, UInt8.le_iff_toNat_le,
    UInt8.reduceToNat, isTail_iff]
  all_goals omega

section Width

variable {first second third fourth : UInt8} (rest : Bytes)

/-- A byte below `0x80` is a character of its own. -/
theorem next_ascii (small : first < 0x80) :
    next first rest = (some (Char.ofNat first.toNat), rest) := by
  unfold next
  rw [if_pos small]

private theorem next_two (lead : 0xC2 ≤ first.toNat ∧ first.toNat ≤ 0xDF)
    (tail : isTail second = true) :
    next first (second :: rest) =
      (some (Char.ofNat (first.toNat % 32 * 64 + tailBits second)), rest) := by
  have wide : ¬ first.toNat < 0x80 := by omega
  simp only [next, UInt8.lt_iff_toNat_lt, UInt8.le_iff_toNat_le, UInt8.reduceToNat, wide, lead,
    tail, if_false, if_true, Bool.and_self, decide_true]

private theorem next_three (lead : 0xE0 ≤ first.toNat ∧ first.toNat ≤ 0xEF)
    (follows : isSecond first second = true) (tail : isTail third = true) :
    next first (second :: third :: rest) =
      (some (Char.ofNat ((first.toNat % 16 * 64 + tailBits second) * 64 + tailBits third)),
        rest) := by
  have wide : ¬ first.toNat < 0x80 := by omega
  have wider : ¬ first.toNat ≤ 0xDF := by omega
  simp only [next, UInt8.lt_iff_toNat_lt, UInt8.le_iff_toNat_le, UInt8.reduceToNat, wide, wider,
    lead, follows, tail, if_false, if_true, Bool.and_self, Bool.and_false, decide_true,
    decide_false, Bool.false_eq_true]

private theorem next_four (lead : 0xF0 ≤ first.toNat ∧ first.toNat ≤ 0xF4)
    (follows : isSecond first second = true) (tail : isTail third = true)
    (last : isTail fourth = true) :
    next first (second :: third :: fourth :: rest) =
      (some (Char.ofNat (((first.toNat % 8 * 64 + tailBits second) * 64 + tailBits third) * 64 +
        tailBits fourth)), rest) := by
  have wide : ¬ first.toNat < 0x80 := by omega
  have wider : ¬ first.toNat ≤ 0xDF := by omega
  have widest : ¬ first.toNat ≤ 0xEF := by omega
  simp only [next, UInt8.lt_iff_toNat_lt, UInt8.le_iff_toNat_le, UInt8.reduceToNat, wide, wider,
    widest, lead, follows, tail, last, if_false, if_true, Bool.and_self, Bool.and_false,
    decide_true, decide_false, Bool.false_eq_true]

end Width

private theorem toNat_ofNat {value : Nat} (fits : value < 256) :
    (UInt8.ofNat value).toNat = value :=
  UInt8.toNat_ofNat_of_lt fits

-- One case for each width of an encoding. The bytes are the digits of the character's number, so
-- putting them together again gives the number.
theorem next_utf8EncodeChar (c : Char) (rest : Bytes) :
    ∃ first tails, String.utf8EncodeChar c = first :: tails ∧
      next first (tails ++ rest) = (some c, rest) := by
  have valid : c.val.toNat < 0xD800 ∨ 0xDFFF < c.val.toNat ∧ c.val.toNat < 0x110000 := c.valid
  have same : Char.ofNat c.val.toNat = c := Char.ofNat_toNat c
  simp only [String.utf8EncodeChar]
  generalize c.val.toNat = v at *
  split
  · refine ⟨_, _, rfl, ?_⟩
    have byte : (UInt8.ofNat v).toNat = v := toNat_ofNat (by omega)
    have small : UInt8.ofNat v < 0x80 := by
      rw [UInt8.lt_iff_toNat_lt, byte]
      exact Nat.lt_succ_of_le ‹_›
    rw [List.nil_append, next_ascii _ small, byte, same]
  have last : (UInt8.ofNat (v % 64 + 128)).toNat = v % 64 + 128 := toNat_ofNat (by omega)
  have lastTail : isTail (UInt8.ofNat (v % 64 + 128)) = true := by
    rw [isTail_iff, last]
    omega
  split
  · refine ⟨_, _, rfl, ?_⟩
    have lead : (UInt8.ofNat (v / 64 % 32 + 192)).toNat = v / 64 % 32 + 192 :=
      toNat_ofNat (by omega)
    have digits : (v / 64 % 32 + 192) % 32 * 64 + (v % 64 + 128) % 64 = v := by omega
    rw [List.cons_append, List.nil_append, next_two _ (by omega) lastTail, tailBits, lead, last,
      digits, same]
  have middle : (UInt8.ofNat (v / 64 % 64 + 128)).toNat = v / 64 % 64 + 128 :=
    toNat_ofNat (by omega)
  have middleTail : isTail (UInt8.ofNat (v / 64 % 64 + 128)) = true := by
    rw [isTail_iff, middle]
    omega
  split
  · refine ⟨_, _, rfl, ?_⟩
    have lead : (UInt8.ofNat (v / 4096 % 16 + 224)).toNat = v / 4096 % 16 + 224 :=
      toNat_ofNat (by omega)
    have follows : isSecond (UInt8.ofNat (v / 4096 % 16 + 224)) (UInt8.ofNat (v / 64 % 64 + 128)) =
        true := by
      rw [isSecond_iff, lead, middle]
      refine ⟨middleTail, ?_⟩
      omega
    have digits : ((v / 4096 % 16 + 224) % 16 * 64 + (v / 64 % 64 + 128) % 64) * 64 +
        (v % 64 + 128) % 64 = v := by omega
    simp only [List.cons_append, List.nil_append]
    rw [next_three _ (by omega) follows lastTail, tailBits, tailBits, lead, middle, last, digits,
      same]
  · refine ⟨_, _, rfl, ?_⟩
    have lead : (UInt8.ofNat (v / 262144 % 8 + 240)).toNat = v / 262144 % 8 + 240 :=
      toNat_ofNat (by omega)
    have second : (UInt8.ofNat (v / 4096 % 64 + 128)).toNat = v / 4096 % 64 + 128 :=
      toNat_ofNat (by omega)
    have follows : isSecond (UInt8.ofNat (v / 262144 % 8 + 240))
        (UInt8.ofNat (v / 4096 % 64 + 128)) = true := by
      rw [isSecond_iff, isTail_iff, lead, second]
      omega
    have digits : (((v / 262144 % 8 + 240) % 8 * 64 + (v / 4096 % 64 + 128) % 64) * 64 +
        (v / 64 % 64 + 128) % 64) * 64 + (v % 64 + 128) % 64 = v := by omega
    simp only [List.cons_append, List.nil_append]
    rw [next_four _ (by omega) follows middleTail lastTail, tailBits, tailBits, tailBits, lead,
      second, middle, last, digits, same]

/-- The characters of lossily decoded bytes. -/
@[simp] theorem toList_lossy (data : Bytes) :
    (lossy data).toList = decodeFrom replacement [] data := by
  rw [lossy, String.toList_ofList]

theorem decodeFrom_nil (broken : Char) : decodeFrom broken [] [] = [] := by
  rw [decodeFrom, List.reverse_nil]

theorem decodeFrom_cons (broken : Char) (first : UInt8) (rest : Bytes) :
    decodeFrom broken [] (first :: rest) =
      (next first rest).1.getD broken :: decodeFrom broken [] (next first rest).2 := by
  rw [decodeFrom, decodeFrom_eq, List.reverse_singleton, List.singleton_append]

/-- A text is read back as it was. -/
@[simp] theorem lossy_ofText (text : String) : lossy (Bytes.ofText text) = text := by
  have chars (cs : List Char) :
      decodeFrom replacement [] (cs.flatMap String.utf8EncodeChar) = cs := by
    induction cs with
    | nil => exact decodeFrom_nil _
    | cons c cs ih =>
      obtain ⟨first, tails, encoded, read⟩ :=
        next_utf8EncodeChar c (cs.flatMap String.utf8EncodeChar)
      rw [List.flatMap_cons, encoded, List.cons_append, decodeFrom_cons, read, ih,
        Option.getD_some]
  rw [← String.toList_inj, toList_lossy, Bytes.ofText_eq_flatMap, chars]

/-- The encoding of a text is valid. -/
@[simp] theorem isValid_ofText (text : String) : isValid (Bytes.ofText text) = true := by
  rw [Bytes.ofText_eq_flatMap]
  induction text.toList with
  | nil =>
    unfold isValid
    rfl
  | cons c cs ih =>
    obtain ⟨first, tails, encoded, read⟩ :=
      next_utf8EncodeChar c (cs.flatMap String.utf8EncodeChar)
    rw [List.flatMap_cons, encoded, List.cons_append, isValid, read, ih]
    rfl

@[simp] theorem strict?_ofText (text : String) : strict? (Bytes.ofText text) = some text := by
  rw [strict?, if_pos (isValid_ofText text), lossy_ofText]

section Ascii

/-- Nothing before a byte below `0x80` takes it in. -/
theorem next_append {after : Bytes} (plain : ∀ byte ∈ after.head?, byte < 0x80) (first : UInt8)
    (rest : Bytes) :
    next first (rest ++ after) = ((next first rest).1, (next first rest).2 ++ after) := by
  cases after with
  | nil => simp
  | cons byte after =>
    have small : byte.toNat < 0x80 := UInt8.lt_iff_toNat_lt.mp (plain byte rfl)
    have noTail : isTail byte = false := by
      rw [← Bool.not_eq_true, isTail_iff]
      omega
    have noSecond : isSecond first byte = false := by
      rw [← Bool.not_eq_true, isSecond_iff, noTail]
      exact fun both => Bool.noConfusion both.1
    -- An encoding looks at three further bytes at most.
    rcases rest with _ | ⟨second, _ | ⟨third, _ | ⟨fourth, rest⟩⟩⟩
    all_goals
      simp only [next, List.nil_append, List.cons_append, noTail, noSecond, Bool.false_eq_true,
        if_false]
      repeat' split
      all_goals rfl

/-- Decoding can be cut in front of a byte below `0x80`. -/
theorem decodeFrom_append {after : Bytes} (plain : ∀ byte ∈ after.head?, byte < 0x80)
    (broken : Char) (data : Bytes) :
    decodeFrom broken [] (data ++ after) =
      decodeFrom broken [] data ++ decodeFrom broken [] after := by
  induction hlen : data.length using Nat.strongRecOn generalizing data with
  | ind length ih =>
    cases data with
    | nil => rw [decodeFrom_nil, List.nil_append, List.nil_append]
    | cons first rest =>
      have shorter := length_next_le first rest
      rw [List.length_cons] at hlen
      rw [List.cons_append, decodeFrom_cons, decodeFrom_cons, next_append plain,
        ih _ (by omega) _ rfl, List.cons_append]

/-- A byte below `0x80` is in the encoding of a text only as a character of its own. -/
theorem ofNat_mem_of_mem_ofText {byte : UInt8} (small : byte < 0x80) {text : String}
    (member : byte ∈ Bytes.ofText text) : Char.ofNat byte.toNat ∈ text.toList := by
  obtain ⟨before, after, encoded⟩ := List.append_of_mem member
  rw [← lossy_ofText text, toList_lossy, encoded, decodeFrom_append (by simpa using small),
    decodeFrom_cons, next_ascii _ small]
  exact List.mem_append_right _ (List.mem_cons_self ..)

private theorem toNat_charOfNat {value : Nat} (valid : value.isValidChar) :
    (Char.ofNat value).toNat = value := by
  rw [Char.ofNat, dif_pos valid]
  rfl

private theorem next_wide {first : UInt8} (wide : 0x80 ≤ first.toNat) (rest : Bytes) :
    ∀ char ∈ (next first rest).1, 0x80 ≤ char.toNat := by
  have notSmall : ¬ first < 0x80 := UInt8.not_lt.mpr (UInt8.le_iff_toNat_le.mpr wide)
  unfold next
  rw [if_neg notSmall]
  repeat' split
  all_goals
    intro char read
    simp only [Option.mem_def, Option.some.injEq, reduceCtorEq] at read
  all_goals
    simp only [isTail_iff, isSecond_iff, tailBits, Bool.and_eq_true, decide_eq_true_eq,
      UInt8.le_iff_toNat_le, UInt8.reduceToNat] at *
    rw [← read, toNat_charOfNat]
    · omega
    · unfold Nat.isValidChar
      omega

theorem next_suffix (first : UInt8) (rest : Bytes) : (next first rest).2 <:+ rest := by
  unfold next
  repeat' split
  all_goals simp [List.suffix_cons_iff]

/-- A character below `0x80` is read from its own byte alone. -/
private theorem next_eq_ascii {c : Char} (small : c.toNat < 0x80) {first : UInt8} {rest : Bytes}
    (read : (next first rest).1.getD replacement = c) :
    first = UInt8.ofNat c.toNat ∧ (next first rest).2 = rest := by
  rcases Nat.lt_or_ge first.toNat 0x80 with ascii | wide
  · rw [next_ascii rest (UInt8.lt_iff_toNat_lt.mpr ascii)] at read ⊢
    rw [← read, Option.getD_some, toNat_charOfNat (Or.inl (by omega)), UInt8.ofNat_toNat]
    exact ⟨rfl, rfl⟩
  · have large := next_wide wide rest
    cases found : (next first rest).1 with
    | none =>
      rw [found, Option.getD_none] at read
      rw [← read] at small
      exact absurd small (by decide)
    | some char =>
      rw [found, Option.getD_some] at read
      rw [read] at found
      exact absurd (large c found) (by omega)

/-- An ASCII text in front of decoded bytes stands in front of the bytes too. -/
theorem exists_of_decodeFrom_eq_append {piece : List Char} (ascii : ∀ c ∈ piece, c.toNat < 0x80)
    {data : Bytes} {more : List Char} (read : decodeFrom replacement [] data = piece ++ more) :
    ∃ rest, data = piece.map (fun c => UInt8.ofNat c.toNat) ++ rest ∧
      decodeFrom replacement [] rest = more := by
  induction piece generalizing data with
  | nil => exact ⟨data, rfl, read⟩
  | cons c piece ih =>
    cases data with
    | nil =>
      rw [decodeFrom_nil] at read
      cases read
    | cons first rest =>
      rw [decodeFrom_cons, List.cons_append, List.cons.injEq] at read
      obtain ⟨rfl, same⟩ := next_eq_ascii (ascii c (List.mem_cons_self ..)) read.1
      rw [same] at read
      obtain ⟨after, rfl, decoded⟩ :=
        ih (fun d member => ascii d (List.mem_cons_of_mem _ member)) read.2
      exact ⟨after, rfl, decoded⟩

theorem decodeFrom_eq_nil_iff {broken : Char} {data : Bytes} :
    decodeFrom broken [] data = [] ↔ data = [] := by
  cases data with
  | nil => simp [decodeFrom_nil]
  | cons first rest => simp [decodeFrom_cons]

/-- An ASCII character among decoded bytes comes from its own byte. -/
theorem mem_of_mem_decodeFrom {c : Char} (small : c.toNat < 0x80) {data : Bytes}
    (read : c ∈ decodeFrom replacement [] data) : UInt8.ofNat c.toNat ∈ data := by
  induction hlen : data.length using Nat.strongRecOn generalizing data with
  | ind length ih =>
    cases data with
    | nil =>
      rw [decodeFrom_nil] at read
      cases read
    | cons first rest =>
      have shorter := length_next_le first rest
      rw [List.length_cons] at hlen
      rw [decodeFrom_cons, List.mem_cons] at read
      rcases read with here | later
      · rw [(next_eq_ascii small here.symm).1]
        exact List.mem_cons_self ..
      · exact List.mem_cons_of_mem _ ((next_suffix first rest).mem (ih _ (by omega) later rfl))

end Ascii

theorem decodeFrom_ne {name : Bytes} {piece : List Char}
    (ascii : ∀ c ∈ piece, c.toNat < 0x80)
    (other : name ≠ piece.map fun c => UInt8.ofNat c.toNat) :
    decodeFrom replacement [] name ≠ piece := by
  intro same
  rw [← List.append_nil piece] at same
  obtain ⟨rest, stored, nothing⟩ := exists_of_decodeFrom_eq_append ascii same
  rw [decodeFrom_eq_nil_iff.mp nothing, List.append_nil] at stored
  exact other stored

theorem decodeFrom_slash_append (before after : Bytes) :
    decodeFrom replacement [] (before ++ 0x2F :: after) =
      decodeFrom replacement [] before ++ '/' :: decodeFrom replacement [] after := by
  rw [decodeFrom_append (by simp), decodeFrom_cons, next_ascii _ (by decide)]
  rfl

/-- A decoded path has the decoded components of the path. -/
theorem splitOn_decodeFrom (data : Bytes) :
    (decodeFrom replacement [] data).splitOn '/' =
      (data.splitOn 0x2F).map (decodeFrom replacement []) := by
  induction hlen : data.length using Nat.strongRecOn generalizing data with
  | ind length ih =>
    by_cases slash : 0x2F ∈ data
    · obtain ⟨before, after, rfl⟩ := List.append_of_mem slash
      rw [List.length_append, List.length_cons] at hlen
      rw [decodeFrom_slash_append, List.splitOn_append_cons_self, List.splitOn_append_cons_self,
        List.map_append, ih _ (by omega) before rfl, ih _ (by omega) after rfl]
    · rw [List.splitOn_eq_singleton slash, List.splitOn_eq_singleton, List.map_singleton]
      exact fun member => slash (mem_of_mem_decodeFrom (by decide) member)

end ImageAudit.Utf8
