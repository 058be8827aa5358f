import ImageAudit.Json.Reader
import ImageAudit.Json.Writer
import ImageAudit.Proofs.Text.ByteOrder

/-! # Whole numbers in decimal digits

A whole number is read back where its digits end. They begin with no zero unless they are a single
one, and what stands behind them must not look like more of a number.
-/

namespace ImageAudit.Json

def digits (n : Nat) : Bytes := (Nat.toDigits 10 n).map fun c => UInt8.ofNat c.toNat

/-- What can stand behind a number: nothing that could be part of it. -/
def EndsNumber (rest : Bytes) : Prop :=
  ∀ byte ∈ rest.head?, isDigit byte = false ∧ byte ≠ 0x2E ∧ byte ≠ 0x65 ∧ byte ≠ 0x45

theorem endsNumber_comma (rest : Bytes) : EndsNumber (0x2C :: rest) := by
  simp [EndsNumber, isDigit]

theorem endsNumber_bracket (rest : Bytes) : EndsNumber (0x5D :: rest) := by
  simp [EndsNumber, isDigit]

theorem endsNumber_brace (rest : Bytes) : EndsNumber (0x7D :: rest) := by
  simp [EndsNumber, isDigit]

private theorem bounds_of_mem_toDigits {c : Char} {n : Nat} (member : c ∈ Nat.toDigits 10 n) :
    48 ≤ c.toNat ∧ c.toNat ≤ 57 := by
  have digit := Nat.isDigit_of_mem_toDigits (by decide) (by decide) member
  simpa [Char.isDigit, UInt32.le_iff_toNat_le] using digit

private theorem toNat_ofNat_of_mem_toDigits {c : Char} {n : Nat}
    (member : c ∈ Nat.toDigits 10 n) : (UInt8.ofNat c.toNat).toNat = c.toNat := by
  have bounds := bounds_of_mem_toDigits member
  exact UInt8.toNat_ofNat_of_lt (Nat.lt_of_le_of_lt bounds.2 (by decide))

theorem isDigit_of_mem_digits {byte : UInt8} {n : Nat} (member : byte ∈ digits n) :
    isDigit byte = true := by
  obtain ⟨c, written, rfl⟩ := List.mem_map.mp member
  have bounds := bounds_of_mem_toDigits written
  simp [isDigit, UInt8.le_iff_toNat_le, toNat_ofNat_of_mem_toDigits written, bounds]

theorem digits_ne_nil (n : Nat) : digits n ≠ [] := by
  simp [digits, Nat.toDigits_ne_nil]

/-- A number is written in its digits. -/
theorem ofText_repr (n : Nat) : Bytes.ofText n.repr = digits n := by
  have ascii : ∀ c ∈ Nat.toDigits 10 n, c.toNat < 128 := by
    intro c member
    have bounds := bounds_of_mem_toDigits member
    omega
  rw [Bytes.ofText_eq_flatMap, Nat.toList_repr, digits, Bytes.flatMap_utf8EncodeChar_ascii ascii]

theorem natOfDigits_digits (n : Nat) : natOfDigits (digits n) = n := by
  have value (cs : List Char) (start : Nat)
      (same : ∀ c ∈ cs, (UInt8.ofNat c.toNat).toNat = c.toNat) :
      (cs.map fun c => UInt8.ofNat c.toNat).foldl
        (fun value byte => value * 10 + (byte.toNat - 48)) start = Nat.ofDigitChars 10 cs start := by
    induction cs generalizing start with
    | nil => rfl
    | cons c cs ih =>
      obtain ⟨first, later⟩ := List.forall_mem_cons.mp same
      rw [List.map_cons, List.foldl_cons, Nat.ofDigitChars_cons, ih _ later, first, Nat.mul_comm]
      rfl
  rw [natOfDigits, digits, value _ _ fun c member => toNat_ofNat_of_mem_toDigits member,
    Nat.ofDigitChars_toDigits (by decide) (by decide)]

/-- A number that is not zero begins with no zero. -/
theorem head?_digits {n : Nat} (positive : 0 < n) : (digits n).head? ≠ some 0x30 := by
  induction n using Nat.strongRecOn with
  | ind n ih =>
    rw [digits, Nat.toDigits_eq_if (by decide)]
    split
    · have first : ∀ digit < 10, 0 < digit →
          (UInt8.ofNat (Nat.digitChar digit).toNat) ≠ 0x30 := by decide
      simpa using first n ‹_› positive
    · have above : 0 < n / 10 := by omega
      have smaller : n / 10 < n := by omega
      have begins := ih (n / 10) smaller above
      rw [digits] at begins
      cases front : (Nat.toDigits 10 (n / 10)).map fun c => UInt8.ofNat c.toNat with
      | nil => exact absurd front (digits_ne_nil _)
      | cons byte bytes =>
        rw [front] at begins
        simpa [front] using begins

theorem length_digits_zero : (digits 0).length = 1 := by decide

/-- The digits in front are those of the number. -/
theorem someDigits?_digits (n : Nat) {rest : Bytes} (ends : EndsNumber rest) :
    someDigits? (digits n ++ rest) = some (digits n, rest) := by
  have behind : rest.takeWhile isDigit = [] := by
    cases rest with
    | nil => rfl
    | cons byte rest => simp [(ends byte rfl).1]
  have taken : (digits n ++ rest).takeWhile isDigit = digits n := by
    rw [List.takeWhile_append_of_pos fun byte member => isDigit_of_mem_digits member, behind,
      List.append_nil]
  rw [someDigits?, taken]
  cases written : digits n with
  | nil => exact absurd written (digits_ne_nil n)
  | cons byte bytes => simp

/-- A number is read back from its digits. -/
theorem readNumber_digits (negative : Bool) (n : Nat) {rest : Bytes} (ends : EndsNumber rest) :
    readNumber negative (digits n ++ rest) = some (wholeNumber negative n, rest) := by
  have noZero : ¬ ((digits n).head? = some 0x30 ∧ 1 < (digits n).length) := by
    rintro ⟨zero, long⟩
    rcases Nat.eq_zero_or_pos n with rfl | positive
    · rw [length_digits_zero] at long
      omega
    · exact head?_digits positive zero
  have noFraction : skipFraction? rest = some (false, rest) := by
    rw [skipFraction?]
    intro after same
    exact (ends 0x2E (by rw [same]; rfl)).2.1 rfl
  have noExponent : skipExponent? rest = some (false, rest) := by
    rw [skipExponent?]
    · intro after same
      exact (ends 0x65 (by rw [same]; rfl)).2.2.1 rfl
    · intro after same
      exact (ends 0x45 (by rw [same]; rfl)).2.2.2 rfl
  simp [readNumber, someDigits?_digits n ends, noZero, noFraction, noExponent,
    natOfDigits_digits]

end ImageAudit.Json
