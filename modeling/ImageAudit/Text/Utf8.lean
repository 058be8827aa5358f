import ImageAudit.Bytes

/-! # Text out of bytes

`next` reads one encoded character. Where the bytes do not encode one, it takes the longest piece
that could have begun a character and yields none for it. Lossy decoding writes one replacement
character for each such piece, so it never fails; strict decoding fails at the first.
-/

namespace ImageAudit.Utf8

/-- What lossy decoding writes for bytes that encode no character. -/
def replacement : Char := '\uFFFD'

def isTail (byte : UInt8) : Bool := 0x80 ≤ byte && byte ≤ 0xBF

/-- The second bytes that may follow a given first byte of three or four. -/
def isSecond (first second : UInt8) : Bool :=
  if first = 0xE0 then 0xA0 ≤ second && second ≤ 0xBF
  else if first = 0xED then 0x80 ≤ second && second ≤ 0x9F
  else if first = 0xF0 then 0x90 ≤ second && second ≤ 0xBF
  else if first = 0xF4 then 0x80 ≤ second && second ≤ 0x8F
  else isTail second

/-- The six low bits of a continuation byte. -/
def tailBits (byte : UInt8) : Nat := byte.toNat % 64

/-- The character that begins with the byte `first`, or none for a broken one, and what follows. -/
def next (first : UInt8) (rest : Bytes) : Option Char × Bytes :=
  if first < 0x80 then (some (Char.ofNat first.toNat), rest)
  else if 0xC2 ≤ first && first ≤ 0xDF then
    match rest with
    | second :: after =>
      if isTail second then
        (some (Char.ofNat (first.toNat % 32 * 64 + tailBits second)), after)
      else (none, rest)
    | [] => (none, rest)
  else if 0xE0 ≤ first && first ≤ 0xEF then
    match rest with
    | second :: after =>
      if isSecond first second then
        match after with
        | third :: last =>
          if isTail third then
            (some (Char.ofNat
              ((first.toNat % 16 * 64 + tailBits second) * 64 + tailBits third)), last)
          else (none, after)
        | [] => (none, after)
      else (none, rest)
    | [] => (none, rest)
  else if 0xF0 ≤ first && first ≤ 0xF4 then
    match rest with
    | second :: after =>
      if isSecond first second then
        match after with
        | third :: last =>
          if isTail third then
            match last with
            | fourth :: final =>
              if isTail fourth then
                (some (Char.ofNat
                  (((first.toNat % 8 * 64 + tailBits second) * 64 + tailBits third) * 64 +
                    tailBits fourth)), final)
              else (none, last)
            | [] => (none, last)
          else (none, after)
        | [] => (none, after)
      else (none, rest)
    | [] => (none, rest)
  else (none, rest)

/-- A character takes at least its first byte. -/
theorem length_next_le (first : UInt8) (rest : Bytes) :
    (next first rest).2.length ≤ rest.length := by
  unfold next
  repeat' split
  all_goals simp only [List.length_cons]
  all_goals omega

/-- The characters read so far, innermost first, then those of the remaining bytes. -/
def decodeFrom (broken : Char) (read : List Char) : Bytes → List Char
  | [] => read.reverse
  | first :: rest =>
    decodeFrom broken ((next first rest).1.getD broken :: read) (next first rest).2
termination_by data => data.length
decreasing_by
  have := length_next_le first rest
  simp only [List.length_cons]
  omega

/-- Every byte string as text, with a replacement character for each broken piece. -/
def lossy (data : Bytes) : String := String.ofList (decodeFrom replacement [] data)

/-- Whether the bytes are the encoding of a text. -/
def isValid : Bytes → Bool
  | [] => true
  | first :: rest => (next first rest).1.isSome && isValid (next first rest).2
termination_by data => data.length
decreasing_by
  have := length_next_le first rest
  simp only [List.length_cons]
  omega

def strict? (data : Bytes) : Option String := if isValid data then some (lossy data) else none

/-- Decoding what is left does not depend on what was read. -/
theorem decodeFrom_eq (broken : Char) (read : List Char) (data : Bytes) :
    decodeFrom broken read data = read.reverse ++ decodeFrom broken [] data := by
  induction hlen : data.length using Nat.strongRecOn generalizing data read with
  | ind length ih =>
    cases data with
    | nil => simp [decodeFrom]
    | cons first rest =>
      have shorter := length_next_le first rest
      rw [decodeFrom, decodeFrom,
        ih _ (by simp only [List.length_cons] at hlen; omega) _ _ rfl,
        ih _ (by simp only [List.length_cons] at hlen; omega) [_] _ rfl]
      simp

end ImageAudit.Utf8
