import ImageAudit.Json.Value
import ImageAudit.Text.Hex
import ImageAudit.Text.Utf8

/-! # Reading JSON

A document is one value with white space around it. `none` means that the bytes are no JSON. Broken
text is no fault here: it matters only where the text is used.
-/

namespace ImageAudit.Json

def skipBlank : Bytes → Bytes
  | [] => []
  | byte :: rest =>
    if byte = 0x20 || byte = 0x0A || byte = 0x0D || byte = 0x09 then skipBlank rest
    else byte :: rest

/-- The number that four digits write in base sixteen. -/
def hexUnit? (a b c d : UInt8) : Option Nat :=
  Hex.natOf? ([a, b, c, d].map fun byte => Char.ofNat byte.toNat)

/-- Half of a pair that must be followed by the other half. -/
def isLeadSurrogate (unit : Nat) : Bool := 0xD800 ≤ unit && unit ≤ 0xDBFF

/-- The second half of a pair. -/
def isTrailSurrogate (unit : Nat) : Bool := 0xDC00 ≤ unit && unit ≤ 0xDFFF

/-- The byte that an escape of one letter stands for. -/
def shortEscape? (letter : UInt8) : Option UInt8 :=
  if letter = 0x22 then some 0x22
  else if letter = 0x5C then some 0x5C
  else if letter = 0x2F then some 0x2F
  else if letter = 0x62 then some 0x08
  else if letter = 0x66 then some 0x0C
  else if letter = 0x6E then some 0x0A
  else if letter = 0x72 then some 0x0D
  else if letter = 0x74 then some 0x09
  else none

/-- The bytes of a character put in front of those read so far, last first. -/
def pushChar (read : Bytes) (scalar : Nat) : Bytes :=
  (String.singleton (Char.ofNat scalar)).toUTF8.toList.reverse ++ read

/-- Reads a string after its opening quote. `lead` is the first half of a surrogate pair that waits
for the second, `whole` is false once half of a pair stood alone, and `read` holds the bytes so
far, last first. -/
def readText (lead : Option Nat) (whole : Bool) (read : Bytes) : Bytes → Option (Text × Bytes)
  | [] => none
  | 0x22 :: rest =>
    some (if whole && lead.isNone then Utf8.strict? read.reverse else none, rest)
  | 0x5C :: 0x75 :: a :: b :: c :: d :: rest =>
    match hexUnit? a b c d with
    | none => none
    | some unit =>
      match lead with
      | some high =>
        if isTrailSurrogate unit then
          readText none whole
            (pushChar read (0x10000 + (high - 0xD800) * 0x400 + (unit - 0xDC00))) rest
        else readText none false read rest
      | none =>
        if isLeadSurrogate unit then readText (some unit) whole read rest
        else if isTrailSurrogate unit then readText none false read rest
        else readText none whole (pushChar read unit) rest
  | 0x5C :: letter :: rest =>
    match shortEscape? letter with
    | some byte => readText none (whole && lead.isNone) (byte :: read) rest
    | none => none
  | byte :: rest =>
    if byte < 0x20 || byte = 0x5C then none
    else readText none (whole && lead.isNone) (byte :: read) rest

def isDigit (byte : UInt8) : Bool := 0x30 ≤ byte && byte ≤ 0x39

def natOfDigits (digits : Bytes) : Nat :=
  digits.foldl (fun value byte => value * 10 + (byte.toNat - 48)) 0

/-- The digits at the front, at least one, and the rest. -/
def someDigits? (data : Bytes) : Option (Bytes × Bytes) :=
  match data.takeWhile isDigit with
  | [] => none
  | digits => some (digits, data.drop digits.length)

/-- The rest after a fraction, if there is one, and whether there is. -/
def skipFraction? : Bytes → Option (Bool × Bytes)
  | 0x2E :: rest => (someDigits? rest).map fun (_, rest) => (true, rest)
  | rest => some (false, rest)

/-- The rest after the sign of an exponent. -/
def skipSign : Bytes → Bytes
  | 0x2B :: rest => rest
  | 0x2D :: rest => rest
  | rest => rest

/-- The rest after an exponent, if there is one, and whether there is. -/
def skipExponent? : Bytes → Option (Bool × Bytes)
  | 0x65 :: rest => (someDigits? (skipSign rest)).map fun (_, rest) => (true, rest)
  | 0x45 :: rest => (someDigits? (skipSign rest)).map fun (_, rest) => (true, rest)
  | rest => some (false, rest)

/-- A whole number as a value: it is kept when 64 bits hold it and it is no zero with a sign. -/
def wholeNumber (negative : Bool) (magnitude : Nat) : Value :=
  if negative then
    if 0 < magnitude && magnitude ≤ 0x8000000000000000 then .integer (-magnitude) else .real
  else if magnitude < 0x10000000000000000 then .integer magnitude else .real

/-- Reads a number after its sign. A leading zero stands alone. -/
def readNumber (negative : Bool) (data : Bytes) : Option (Value × Bytes) := do
  let (digits, rest) ← someDigits? data
  if digits.head? = some 0x30 ∧ 1 < digits.length then none
  let (fraction, rest) ← skipFraction? rest
  let (exponent, rest) ← skipExponent? rest
  return (if fraction || exponent then .real else wholeNumber negative (natOfDigits digits), rest)

mutual

/-- Reads the value at the front; the fuel bounds its depth and the number of its parts. -/
def readValue : Nat → Bytes → Option (Value × Bytes)
  | 0, _ => none
  | fuel + 1, data =>
    match skipBlank data with
    | 0x6E :: 0x75 :: 0x6C :: 0x6C :: rest => some (.null, rest)
    | 0x74 :: 0x72 :: 0x75 :: 0x65 :: rest => some (.bool true, rest)
    | 0x66 :: 0x61 :: 0x6C :: 0x73 :: 0x65 :: rest => some (.bool false, rest)
    | 0x22 :: rest => (readText none true [] rest).map fun (text, rest) => (.text text, rest)
    | 0x2D :: rest => readNumber true rest
    | 0x5B :: rest =>
      match skipBlank rest with
      | 0x5D :: rest => some (.array [], rest)
      | rest => readItems fuel [] rest
    | 0x7B :: rest =>
      match skipBlank rest with
      | 0x7D :: rest => some (.object [], rest)
      | rest => readMembers fuel [] rest
    | rest => readNumber false rest

/-- Reads the remaining items of an array, at least one; `read` holds those before, last first. -/
def readItems : Nat → List Value → Bytes → Option (Value × Bytes)
  | 0, _, _ => none
  | fuel + 1, read, data =>
    match readValue fuel data with
    | none => none
    | some (item, rest) =>
      match skipBlank rest with
      | 0x2C :: rest => readItems fuel (item :: read) rest
      | 0x5D :: rest => some (.array (item :: read).reverse, rest)
      | _ => none

/-- Reads the remaining members of an object, at least one; `read` holds those before, last
first. -/
def readMembers : Nat → List (Text × Value) → Bytes → Option (Value × Bytes)
  | 0, _, _ => none
  | fuel + 1, read, data =>
    match skipBlank data with
    | 0x22 :: rest =>
      match readText none true [] rest with
      | none => none
      | some (key, rest) =>
        match skipBlank rest with
        | 0x3A :: rest =>
          match readValue fuel rest with
          | none => none
          | some (value, rest) =>
            match skipBlank rest with
            | 0x2C :: rest => readMembers fuel ((key, value) :: read) rest
            | 0x7D :: rest => some (.object ((key, value) :: read).reverse, rest)
            | _ => none
        | _ => none
    | _ => none

end

def read? (document : Bytes) : Option Value := do
  let (value, rest) ← readValue (document.length + 1) document
  if skipBlank rest = [] then some value else none

end ImageAudit.Json
