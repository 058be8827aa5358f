import ImageAudit.Sql.Token

/-! # Numbers as text

A text is read as a number as far as its beginning writes one. Whole numbers have 64 bits; what is
larger is a real number. A real number is written with fifteen digits, without zeros at the end,
and always with a point; one that is very large or very small has an exponent.
-/

namespace ImageAudit.Sql

def inWholeRange (value : Int) : Bool := -0x8000000000000000 ≤ value && value < 0x8000000000000000

/-- The nearest whole number of 64 bits. -/
def clampWhole (value : Int) : Int := max (-0x8000000000000000) (min value (0x8000000000000000 - 1))

/-- The number that the beginning of a text writes. -/
structure Numeral where
  isNegative : Bool
  /-- The digits before the exponent, as a number. -/
  digits : Nat
  /-- The power of ten that the digits are multiplied by. -/
  exponent : Int
  hasDigits : Bool
  /-- Whether there is neither a fraction nor the mark of an exponent. -/
  isPlain : Bool
  /-- Whether there is a fraction or a complete exponent. -/
  isReal : Bool
  /-- The value of the digits in front of a fraction and an exponent. -/
  wholeDigits : Nat
  /-- Whether the text holds nothing else but white space around the number. -/
  isAll : Bool

namespace Numeral

def natOf (digits : Bytes) : Nat :=
  digits.foldl (fun value digit => value * 10 + (digit.toNat - 0x30)) 0

def readSign (text : Bytes) : Bool × Bytes :=
  match text with
  | 0x2D :: rest => (true, rest)
  | 0x2B :: rest => (false, rest)
  | _ => (false, text)

/-- The exponent that a text begins with, whether its mark is there, and whether it is complete, and
what follows. -/
def readExponent (text : Bytes) : Int × Bool × Bool × Bytes :=
  match text with
  | e :: rest =>
    if Byte.lower e = 0x65 then
      let (isNegative, rest) := readSign rest
      let digits := rest.takeWhile Byte.isDigit
      let size : Int := min (natOf digits) 10000
      (if isNegative then -size else size, true, digits != [], rest.drop digits.length)
    else (0, false, true, text)
  | [] => (0, false, true, [])

def read (text : Bytes) : Numeral :=
  let (isNegative, rest) := readSign (text.dropWhile Byte.isSpace)
  let whole := rest.takeWhile Byte.isDigit
  let rest := rest.drop whole.length
  let hasPoint := rest.head? = some 0x2E
  let fraction := if hasPoint then (rest.drop 1).takeWhile Byte.isDigit else []
  let rest := if hasPoint then rest.drop (1 + fraction.length) else rest
  let (exponent, hasExponent, isComplete, rest) := readExponent rest
  { isNegative
    digits := natOf (whole ++ fraction)
    exponent := exponent - fraction.length
    hasDigits := whole ++ fraction != []
    isPlain := !hasPoint && !hasExponent
    isReal := hasPoint || hasExponent && isComplete
    wholeDigits := natOf whole
    isAll := isComplete && rest.all Byte.isSpace && whole ++ fraction != [] }

/-- The number as a real number. -/
def toFloat (numeral : Numeral) : Float :=
  let size :=
    if numeral.digits = 0 then 0
    else if numeral.exponent < 0 then
      Float.ofScientific numeral.digits true numeral.exponent.natAbs
    else if 400 < numeral.exponent then 1.0 / 0.0
    else Float.ofScientific numeral.digits false numeral.exponent.natAbs
  if numeral.isNegative then -size else size

/-- The digits in front of a fraction and an exponent as a number. -/
def whole (numeral : Numeral) : Int :=
  if numeral.isNegative then -(numeral.wholeDigits : Int) else numeral.wholeDigits

/-- The whole number of 64 bits that the text begins with, unless a real number is written there. -/
def leadingWhole? (numeral : Numeral) : Option Int :=
  let isWhole := if numeral.isAll then numeral.isPlain else !(numeral.hasDigits && numeral.isReal)
  if isWhole && inWholeRange numeral.whole then some numeral.whole else none

end Numeral

namespace Real

/-- The whole number next to a real number, towards zero. -/
def truncate (value : Float) : Int :=
  if value ≤ -9223372036854775808.0 then -0x8000000000000000
  else if value ≥ 9223372036854775807.0 then 0x8000000000000000 - 1
  else if value < 0 then -((-value).toUInt64.toNat : Int)
  else value.toUInt64.toNat

/-- The real number that a whole number is nearest to. -/
def ofInt (value : Int) : Float := Float.ofInt value

/-- The whole number that a real number is, if it is one of 64 bits. -/
def whole? (value : Float) : Option Int :=
  let whole := truncate value
  if ofInt whole == value && whole != -0x8000000000000000 && whole < 0x8000000000000000 - 1 then
    some whole
  else none

/-- The mantissa and the power of two of a finite real number that is not negative. -/
def parts (value : Float) : Nat × Int :=
  let bits := value.toBits.toNat % 0x8000000000000000
  let exponent : Nat := bits / 0x10000000000000
  let mantissa := bits % 0x10000000000000
  if exponent = 0 then (mantissa, -1074) else (mantissa + 0x10000000000000, (exponent : Int) - 1075)

/-- The digits of a number of text digits. -/
def significant : Nat := 15

/-- A quotient, rounded to the nearest number. -/
def roundedQuotient (numerator denominator : Nat) : Nat :=
  (2 * numerator + denominator) / (2 * denominator)

/-- A fraction in units of a power of ten, rounded. -/
def inUnits (numerator denominator : Nat) (power : Int) : Nat :=
  if power < 0 then roundedQuotient (numerator * Nat.pow 10 power.natAbs) denominator
  else roundedQuotient numerator (denominator * Nat.pow 10 power.natAbs)

/-- The digits of a fraction that is not zero, as many as are written, and the power of ten of the
last of them. -/
def decimal (numerator denominator : Nat) : Nat × Int :=
  let bits : Int := (Nat.log2 numerator : Int) - (Nat.log2 denominator : Int)
  let estimate : Int := bits * 30103 / 100000 - (significant : Int) - 1
  let fits (power : Int) : Bool := inUnits numerator denominator power < Nat.pow 10 significant
  let power := ((List.range 6).map fun (step : Nat) => estimate + (step : Int)).find? fits
  let power := power.getD estimate
  (inUnits numerator denominator power, power)

/-- The decimal digits without the zeros at the end. -/
def trimmed (digits : List Char) : List Char :=
  (digits.reverse.dropWhile (· == '0')).reverse

/-- Digits with a zero where there are none. -/
def orZero (digits : List Char) : List Char := if digits = [] then ['0'] else digits

/-- Two decimal digits at least. -/
def twoDigits (value : Nat) : List Char := (Text.twoDigits value).toList

/-- Digits as a number between 10 to the power of the exponent and ten times that. -/
def layout (digits : List Char) (exponent : Int) : List Char :=
  if exponent < -4 ∨ (significant : Int) - 1 < exponent then
    let sign := if exponent < 0 then '-' else '+'
    digits.take 1 ++ ['.'] ++ orZero (trimmed (digits.drop 1)) ++ ['e', sign] ++
      twoDigits exponent.natAbs
  else if exponent < 0 then
    ['0', '.'] ++ List.replicate (exponent.natAbs - 1) '0' ++ trimmed digits
  else
    let whole := exponent.natAbs + 1
    let padded := digits ++ List.replicate (whole - digits.length) '0'
    padded.take whole ++ ['.'] ++ orZero (trimmed (padded.drop whole))

def text (value : Float) : String :=
  let isNegative := value < 0
  if value == 0 then "0.0"
  else if value.isInf then if isNegative then "-Inf" else "Inf"
  else
    let (mantissa, power) := parts value
    let (digits, unit) :=
      if power < 0 then decimal mantissa (Nat.pow 2 power.natAbs)
      else decimal (mantissa * Nat.pow 2 power.natAbs) 1
    let chars := (toString digits).toList
    let body := layout chars (unit + chars.length - 1)
    String.ofList (if isNegative then '-' :: body else body)

end Real

end ImageAudit.Sql
