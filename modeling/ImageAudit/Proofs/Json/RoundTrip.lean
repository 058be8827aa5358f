import ImageAudit.Proofs.Json.Numeral
import ImageAudit.Proofs.Json.Quoted

/-! # What was written is read

A value is read back as it was written, if it has no number that is not kept and no broken text. The
reader meets a written value in front of whatever follows it, and each value takes at least as many
bytes as the reader takes turns for it, so its fuel is never used up.
-/

namespace ImageAudit.Json

/-- A value that is written as what it is. -/
inductive Value.IsKept : Value → Prop where
  | null : IsKept .null
  | bool (value : Bool) : IsKept (.bool value)
  | integer {value : Int} (low : -0x8000000000000000 ≤ value)
      (high : value < 0x10000000000000000) : IsKept (.integer value)
  | text (content : String) : IsKept (.text (some content))
  | array {items : List Value} (each : ∀ item ∈ items, IsKept item) : IsKept (.array items)
  | object {members : List (Text × Value)} (keys : ∀ member ∈ members, member.1.isSome)
      (each : ∀ member ∈ members, IsKept member.2) : IsKept (.object members)

namespace Value

theorem isKept_str (content : String) : (str content).IsKept := .text content

theorem isKept_nat {n : Nat} (fits : n < 0x10000000000000000) : (nat n).IsKept := by
  apply IsKept.integer
  · omega
  · omega

theorem isKept_list {α : Type} {write : α → Value} {items : List α}
    (each : ∀ item ∈ items, (write item).IsKept) : (list write items).IsKept := by
  apply IsKept.array
  intro value member
  obtain ⟨item, listed, rfl⟩ := List.mem_map.mp member
  exact each item listed

theorem isKept_record {members : List (String × Value)}
    (each : ∀ member ∈ members, member.2.IsKept) : (record members).IsKept := by
  apply IsKept.object
  · intro member listed
    obtain ⟨original, -, rfl⟩ := List.mem_map.mp listed
    rfl
  · intro member listed
    obtain ⟨original, present, rfl⟩ := List.mem_map.mp listed
    exact each original present

end Value

/-- A byte that a value can begin with: white space would be passed over, and a bracket closes an
array. -/
def BeginsValue (byte : UInt8) : Prop :=
  byte ≠ 0x20 ∧ byte ≠ 0x0A ∧ byte ≠ 0x0D ∧ byte ≠ 0x09 ∧ byte ≠ 0x5D

instance (byte : UInt8) : Decidable (BeginsValue byte) :=
  inferInstanceAs (Decidable
    (byte ≠ 0x20 ∧ byte ≠ 0x0A ∧ byte ≠ 0x0D ∧ byte ≠ 0x09 ∧ byte ≠ 0x5D))

theorem BeginsValue.skipBlank {byte : UInt8} (begins : BeginsValue byte) (rest : Bytes) :
    skipBlank (byte :: rest) = byte :: rest := by
  obtain ⟨noBlank, noFeed, noReturn, noTab, -⟩ := begins
  simp [Json.skipBlank, noBlank, noFeed, noReturn, noTab]

theorem beginsValue_of_isDigit {byte : UInt8} (digit : isDigit byte = true) :
    BeginsValue byte := by
  refine ⟨?_, ?_, ?_, ?_, ?_⟩
  all_goals
    rintro rfl
    exact absurd digit (by decide)

section FirstByte

variable (fuel : Nat) (rest : Bytes)

theorem readValue_quote : readValue (fuel + 1) (0x22 :: rest) =
    (readText none true [] rest).map fun (text, rest) => (.text text, rest) := rfl

theorem readValue_minus : readValue (fuel + 1) (0x2D :: rest) = readNumber true rest := rfl

/-- A digit begins a number. -/
theorem readValue_digit {byte : UInt8} (digit : isDigit byte = true) :
    readValue (fuel + 1) (byte :: rest) = readNumber false (byte :: rest) := by
  rw [readValue, (beginsValue_of_isDigit digit).skipBlank]
  split
  case h_8 => rfl
  all_goals
    rename_i same
    rw [(List.cons.inj same).1] at digit
    exact absurd digit (by decide)

theorem readValue_emptyArray :
    readValue (fuel + 1) (0x5B :: 0x5D :: rest) = some (.array [], rest) := rfl

/-- An array that is not closed at once has items. -/
theorem readValue_array {byte : UInt8} (begins : BeginsValue byte) :
    readValue (fuel + 1) (0x5B :: byte :: rest) = readItems fuel [] (byte :: rest) := by
  have opening : BeginsValue 0x5B := by decide
  simp only [readValue, opening.skipBlank, begins.skipBlank]
  split
  case h_1 same => exact absurd (List.cons.inj same).1 begins.2.2.2.2
  case h_2 => rfl

theorem readValue_emptyObject :
    readValue (fuel + 1) (0x7B :: 0x7D :: rest) = some (.object [], rest) := rfl

theorem readValue_object :
    readValue (fuel + 1) (0x7B :: 0x22 :: rest) = readMembers fuel [] (0x22 :: rest) := rfl

end FirstByte

section Written

def written (value : Value) : Bytes := Bytes.ofText (write value)

/-- The bytes between the brackets of an array. -/
def writtenItems (items : List Value) : Bytes :=
  Bytes.ofText (",".intercalate (writeItems items))

/-- The bytes between the braces of an object. -/
def writtenMembers (members : List (Text × Value)) : Bytes :=
  Bytes.ofText (",".intercalate (writeMembers members))

private theorem ofText_comma : Bytes.ofText "," = [0x2C] := (Bytes.ofText_eq_flatMap _).trans rfl

theorem written_natural (n : Nat) : written (.integer n) = digits n := by
  rw [written, write]
  exact ofText_repr n

theorem written_negative (n : Nat) :
    written (.integer (Int.negSucc n)) = 0x2D :: digits (n + 1) := by
  have sign : Bytes.ofText "-" = [0x2D] := (Bytes.ofText_eq_flatMap _).trans rfl
  have text : toString (Int.negSucc n) = "-" ++ (n + 1).repr := rfl
  rw [written, write, text, Bytes.ofText_append, sign, ofText_repr]
  rfl

theorem written_text (content : String) : written (.text (some content)) =
    0x22 :: ((content.toList.flatMap escape).flatMap String.utf8EncodeChar ++ [0x22]) := by
  rw [written, write]
  exact ofText_quote content

theorem written_array (items : List Value) :
    written (.array items) = 0x5B :: (writtenItems items ++ [0x5D]) := by
  have opening : Bytes.ofText "[" = [0x5B] := (Bytes.ofText_eq_flatMap _).trans rfl
  have closing : Bytes.ofText "]" = [0x5D] := (Bytes.ofText_eq_flatMap _).trans rfl
  rw [written, write, Bytes.ofText_append, Bytes.ofText_append, opening, closing]
  rfl

theorem written_object (members : List (Text × Value)) :
    written (.object members) = 0x7B :: (writtenMembers members ++ [0x7D]) := by
  have opening : Bytes.ofText "\x7b" = [0x7B] := (Bytes.ofText_eq_flatMap _).trans rfl
  have closing : Bytes.ofText "\x7d" = [0x7D] := (Bytes.ofText_eq_flatMap _).trans rfl
  rw [written, write, Bytes.ofText_append, Bytes.ofText_append, opening, closing]
  rfl

theorem writtenItems_nil : writtenItems [] = [] := (Bytes.ofText_eq_flatMap _).trans rfl

theorem writtenItems_singleton (item : Value) : writtenItems [item] = written item := by
  rw [writtenItems, writeItems, writeItems, String.intercalate_singleton, written]

theorem writtenItems_cons_cons (first second : Value) (items : List Value) :
    writtenItems (first :: second :: items) =
      written first ++ 0x2C :: writtenItems (second :: items) := by
  rw [writtenItems, writeItems, writeItems, String.intercalate_cons_cons, Bytes.ofText_append,
    Bytes.ofText_append, ofText_comma, ← writeItems, List.append_assoc]
  rfl

theorem writtenMembers_nil : writtenMembers [] = [] := (Bytes.ofText_eq_flatMap _).trans rfl

private theorem ofText_member (name : String) (value : Value) :
    Bytes.ofText (quote name ++ ":" ++ write value) =
      0x22 :: ((name.toList.flatMap escape).flatMap String.utf8EncodeChar ++
        0x22 :: 0x3A :: written value) := by
  have colon : Bytes.ofText ":" = [0x3A] := (Bytes.ofText_eq_flatMap _).trans rfl
  rw [Bytes.ofText_append, Bytes.ofText_append, colon, ofText_quote, written]
  simp

theorem writtenMembers_singleton (name : String) (value : Value) :
    writtenMembers [(some name, value)] =
      0x22 :: ((name.toList.flatMap escape).flatMap String.utf8EncodeChar ++
        0x22 :: 0x3A :: written value) := by
  rw [writtenMembers, writeMembers, writeMembers, String.intercalate_singleton, Option.getD_some,
    ofText_member]

theorem writtenMembers_cons_cons (name : String) (value : Value) (second : Text × Value)
    (members : List (Text × Value)) :
    writtenMembers ((some name, value) :: second :: members) =
      0x22 :: ((name.toList.flatMap escape).flatMap String.utf8EncodeChar ++
        0x22 :: 0x3A :: (written value ++ 0x2C :: writtenMembers (second :: members))) := by
  rw [writtenMembers, writeMembers, writeMembers, String.intercalate_cons_cons,
    Bytes.ofText_append, Bytes.ofText_append, ofText_comma, Option.getD_some, ofText_member,
    ← writeMembers]
  simp [writtenMembers]

end Written

/-- The reader meets the value in front of whatever follows it. -/
def ReadsBack (value : Value) : Prop :=
  ∀ ⦃fuel rest⦄, (written value).length ≤ fuel → EndsNumber rest →
    readValue fuel (written value ++ rest) = some (value, rest)

/-- A value begins with a byte that is not passed over. -/
theorem Value.IsKept.exists_written {value : Value} (kept : value.IsKept) :
    ∃ byte bytes, written value = byte :: bytes ∧ BeginsValue byte := by
  cases kept with
  | null => exact ⟨0x6E, _, (Bytes.ofText_eq_flatMap _).trans rfl, by decide⟩
  | bool value =>
    cases value
    · exact ⟨0x66, _, (Bytes.ofText_eq_flatMap _).trans rfl, by decide⟩
    · exact ⟨0x74, _, (Bytes.ofText_eq_flatMap _).trans rfl, by decide⟩
  | @integer value =>
    cases value with
    | ofNat n =>
      obtain ⟨byte, bytes, cut⟩ := List.exists_cons_of_ne_nil (digits_ne_nil n)
      have digit : isDigit byte = true := isDigit_of_mem_digits (cut ▸ List.mem_cons_self ..)
      exact ⟨byte, bytes, (written_natural n).trans cut, beginsValue_of_isDigit digit⟩
    | negSucc n => exact ⟨0x2D, _, written_negative n, by decide⟩
  | text content => exact ⟨0x22, _, written_text content, by decide⟩
  | array => exact ⟨0x5B, _, written_array _, by decide⟩
  | object => exact ⟨0x7B, _, written_object _, by decide⟩

section Parts

/-- The items of an array begin with a value. -/
theorem exists_writtenItems {items : List Value} (notEmpty : items ≠ [])
    (each : ∀ item ∈ items, item.IsKept) :
    ∃ byte bytes, writtenItems items = byte :: bytes ∧ BeginsValue byte := by
  match items with
  | [item] =>
    rw [writtenItems_singleton]
    exact (each item (by simp)).exists_written
  | first :: second :: items =>
    obtain ⟨byte, bytes, cut, begins⟩ := (each first (by simp)).exists_written
    rw [writtenItems_cons_cons, cut]
    exact ⟨byte, _, rfl, begins⟩

/-- The members of an object begin with a quote. -/
theorem exists_writtenMembers {members : List (Text × Value)} (notEmpty : members ≠ [])
    (keys : ∀ member ∈ members, member.1.isSome) :
    ∃ bytes, writtenMembers members = 0x22 :: bytes := by
  match members with
  | [(some name, value)] => exact ⟨_, writtenMembers_singleton name value⟩
  | (some name, value) :: second :: members =>
    exact ⟨_, writtenMembers_cons_cons name value second members⟩
  | (none, value) :: members => exact absurd (keys (none, value) (by simp)) (by simp)

/-- The remaining items of an array are read up to its end. -/
theorem readItems_written {items : List Value} (notEmpty : items ≠ [])
    (each : ∀ item ∈ items, ReadsBack item) (read : List Value) {fuel : Nat} (rest : Bytes)
    (enough : (writtenItems items).length < fuel) :
    readItems fuel read (writtenItems items ++ 0x5D :: rest) =
      some (.array (read.reverse ++ items), rest) := by
  induction items generalizing read fuel with
  | nil => exact absurd rfl notEmpty
  | cons item items ih =>
    obtain ⟨readsItem, later⟩ := List.forall_mem_cons.mp each
    obtain ⟨fuel, rfl⟩ := Nat.exists_eq_add_one_of_ne_zero (show fuel ≠ 0 by omega)
    cases items with
    | nil =>
      rw [writtenItems_singleton] at enough ⊢
      rw [readItems, readsItem (by omega) (endsNumber_bracket rest)]
      simp [skipBlank]
    | cons second items =>
      rw [writtenItems_cons_cons, List.length_append, List.length_cons] at enough
      have fewer : (writtenItems (second :: items)).length < fuel := by omega
      have remaining := ih (by simp) later (item :: read) fewer
      rw [writtenItems_cons_cons, List.append_assoc, List.cons_append, readItems,
        readsItem (by omega) (endsNumber_comma _)]
      simpa [skipBlank] using remaining

section Member

variable {value : Value} (readsValue : ReadsBack value) (name : String)
  (read : List (Text × Value)) {fuel : Nat} (rest : Bytes) (enough : (written value).length ≤ fuel)
include readsValue enough

/-- After a member and a comma the members behind it are read. -/
theorem readMembers_next :
    readMembers (fuel + 1) read
      (0x22 :: ((name.toList.flatMap escape).flatMap String.utf8EncodeChar ++
        0x22 :: 0x3A :: (written value ++ 0x2C :: rest))) =
      readMembers fuel ((some name, value) :: read) rest := by
  have quote : BeginsValue 0x22 := by decide
  have colon : BeginsValue 0x3A := by decide
  have reads := readsValue enough (endsNumber_comma rest)
  simp only [readMembers, quote.skipBlank, readText_quoted, colon.skipBlank, reads]
  simp [skipBlank]

/-- After the last member the object is closed. -/
theorem readMembers_last :
    readMembers (fuel + 1) read
      (0x22 :: ((name.toList.flatMap escape).flatMap String.utf8EncodeChar ++
        0x22 :: 0x3A :: (written value ++ 0x7D :: rest))) =
      some (.object (read.reverse ++ [(some name, value)]), rest) := by
  have quote : BeginsValue 0x22 := by decide
  have colon : BeginsValue 0x3A := by decide
  have reads := readsValue enough (endsNumber_brace rest)
  simp only [readMembers, quote.skipBlank, readText_quoted, colon.skipBlank, reads]
  simp [skipBlank]

end Member

/-- The remaining members of an object are read up to its end. -/
theorem readMembers_written {members : List (Text × Value)} (notEmpty : members ≠ [])
    (keys : ∀ member ∈ members, member.1.isSome)
    (each : ∀ member ∈ members, ReadsBack member.2) (read : List (Text × Value)) {fuel : Nat}
    (rest : Bytes) (enough : (writtenMembers members).length < fuel) :
    readMembers fuel read (writtenMembers members ++ 0x7D :: rest) =
      some (.object (read.reverse ++ members), rest) := by
  induction members generalizing read fuel with
  | nil => exact absurd rfl notEmpty
  | cons member members ih =>
    obtain ⟨readsMember, later⟩ := List.forall_mem_cons.mp each
    obtain ⟨isKey, laterKeys⟩ := List.forall_mem_cons.mp keys
    obtain ⟨key, value⟩ := member
    obtain ⟨name, rfl⟩ := Option.isSome_iff_exists.mp isKey
    change ReadsBack value at readsMember
    obtain ⟨fuel, rfl⟩ := Nat.exists_eq_add_one_of_ne_zero (show fuel ≠ 0 by omega)
    cases members with
    | nil =>
      rw [writtenMembers_singleton] at enough ⊢
      simp only [List.length_cons, List.length_append] at enough
      simp only [List.cons_append, List.append_assoc]
      exact readMembers_last readsMember name read rest (by omega)
    | cons second members =>
      rw [writtenMembers_cons_cons] at enough ⊢
      simp only [List.length_cons, List.length_append] at enough
      simp only [List.cons_append, List.append_assoc]
      have fewer : (writtenMembers (second :: members)).length < fuel := by omega
      have remaining := ih (by simp) laterKeys later ((some name, value) :: read) fewer
      rw [readMembers_next readsMember name read _ (by omega), remaining]
      simp

end Parts

/-- A value is not empty, so there is fuel to look at its first byte. -/
theorem readsBack_of_cons {value : Value} {byte : UInt8} {bytes : Bytes}
    (begins : written value = byte :: bytes)
    (reads : ∀ fuel rest, bytes.length ≤ fuel → EndsNumber rest →
      readValue (fuel + 1) (byte :: (bytes ++ rest)) = some (value, rest)) :
    ReadsBack value := by
  intro fuel rest enough ends
  rw [begins, List.length_cons] at enough
  obtain ⟨fuel, rfl⟩ := Nat.exists_eq_add_one_of_ne_zero (show fuel ≠ 0 by omega)
  rw [begins, List.cons_append]
  exact reads fuel rest (Nat.le_of_succ_le_succ enough) ends

/-- A whole number that is kept is read back from its sign and digits. -/
theorem readsBack_integer {value : Int} (low : -0x8000000000000000 ≤ value)
    (high : value < 0x10000000000000000) : ReadsBack (.integer value) := by
  cases value with
  | ofNat n =>
    have small : n < 0x10000000000000000 := Int.ofNat_lt.mp high
    obtain ⟨byte, bytes, cut⟩ := List.exists_cons_of_ne_nil (digits_ne_nil n)
    have digit : isDigit byte = true := isDigit_of_mem_digits (cut ▸ List.mem_cons_self ..)
    apply readsBack_of_cons ((written_natural n).trans cut)
    intro fuel rest _ ends
    rw [readValue_digit _ _ digit, ← List.cons_append, ← cut, readNumber_digits false n ends]
    simp [wholeNumber, small]
  | negSucc n =>
    have small : n + 1 ≤ 0x8000000000000000 := by omega
    apply readsBack_of_cons (written_negative n)
    intro fuel rest _ ends
    rw [readValue_minus, readNumber_digits true _ ends]
    simp [wholeNumber, small, Int.negSucc_eq]

/-- A value is read back as it was written, whatever follows it. -/
theorem Value.IsKept.readsBack {value : Value} (kept : value.IsKept) : ReadsBack value := by
  induction kept with
  | integer low high => exact readsBack_integer low high
  | null =>
    have bytes : written .null = [0x6E, 0x75, 0x6C, 0x6C] := (Bytes.ofText_eq_flatMap _).trans rfl
    exact readsBack_of_cons bytes fun fuel rest _ _ => rfl
  | bool value =>
    cases value
    · have bytes : written (.bool false) = [0x66, 0x61, 0x6C, 0x73, 0x65] :=
        (Bytes.ofText_eq_flatMap _).trans rfl
      exact readsBack_of_cons bytes fun fuel rest _ _ => rfl
    · have bytes : written (.bool true) = [0x74, 0x72, 0x75, 0x65] :=
        (Bytes.ofText_eq_flatMap _).trans rfl
      exact readsBack_of_cons bytes fun fuel rest _ _ => rfl
  | text content =>
    apply readsBack_of_cons (written_text content)
    intro fuel rest _ _
    rw [List.append_assoc, List.singleton_append, readValue_quote, readText_quoted]
    rfl
  | @array items each ih =>
    apply readsBack_of_cons (written_array items)
    intro fuel rest enough _
    rw [List.length_append, List.length_singleton] at enough
    rw [List.append_assoc, List.singleton_append]
    by_cases empty : items = []
    · rw [empty, writtenItems_nil]
      exact readValue_emptyArray fuel rest
    · have reads := readItems_written empty ih [] rest enough
      obtain ⟨byte, bytes, cut, begins⟩ := exists_writtenItems empty each
      rw [cut, List.cons_append] at reads ⊢
      rw [readValue_array _ _ begins, reads, List.reverse_nil, List.nil_append]
  | @object members keys each ih =>
    apply readsBack_of_cons (written_object members)
    intro fuel rest enough _
    rw [List.length_append, List.length_singleton] at enough
    rw [List.append_assoc, List.singleton_append]
    by_cases empty : members = []
    · rw [empty, writtenMembers_nil]
      exact readValue_emptyObject fuel rest
    · have reads := readMembers_written empty keys ih [] rest enough
      obtain ⟨bytes, cut⟩ := exists_writtenMembers empty keys
      rw [cut, List.cons_append] at reads ⊢
      rw [readValue_object, reads, List.reverse_nil, List.nil_append]

/-- A document that was written is read back. -/
theorem read?_write {value : Value} (kept : value.IsKept) :
    read? (Bytes.ofText (write value)) = some value := by
  have ends : EndsNumber [] := by simp [EndsNumber]
  have reads := kept.readsBack (Nat.le_succ _) ends
  rw [List.append_nil, written] at reads
  rw [read?, reads]
  rfl

end ImageAudit.Json
