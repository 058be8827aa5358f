import ImageAudit.Sql.Fault
import ImageAudit.Sql.Function.Decimal
import ImageAudit.Sql.Function.Text

/-! # Formatting

A format is a text in which each directive stands for the next value, or for nothing where there is
none. A directive may state a width, a precision, and how the value is put into the width. A
directive that has no meaning ends the text.
-/

namespace ImageAudit.Sql

structure FormatDirective where
  isLeft : Bool
  /-- The sign of numbers that are not below zero. -/
  plainSign : Bytes
  hasZeros : Bool
  isAlternate : Bool
  /-- Whether a text is counted in characters, and zeros at the end of a fraction are left out. -/
  countsCharacters : Bool
  hasCommas : Bool
  width : Nat
  precision : Option Nat

namespace FormatDirective

def plain : FormatDirective := ⟨false, [], false, false, false, false, 0, none⟩

def withFlag? (directive : FormatDirective) (flag : UInt8) : Option FormatDirective :=
  match Char.ofNat flag.toNat with
  | '-' => some { directive with isLeft := true }
  | '+' => some { directive with plainSign := [0x2B] }
  | ' ' => some { directive with plainSign := [0x20] }
  | '0' => some { directive with hasZeros := true }
  | '#' => some { directive with isAlternate := true }
  | '!' => some { directive with countsCharacters := true }
  | ',' => some { directive with hasCommas := true }
  | _ => none

/-- Reads the flags at the beginning of a text. -/
def readFlags (directive : FormatDirective) : Bytes → FormatDirective × Bytes
  | [] => (directive, [])
  | byte :: rest =>
    match directive.withFlag? byte with
    | some directive => readFlags directive rest
    | none => (directive, byte :: rest)

def pad (directive : FormatDirective) (text : Bytes) : Bytes :=
  let blanks := List.replicate (directive.width - text.length) 0x20
  if directive.isLeft then text ++ blanks else blanks ++ text

/-- A text put into the width, which may be counted in characters. -/
def padText (directive : FormatDirective) (text : Bytes) : Bytes :=
  let tails := text.countP fun byte => 0x80 ≤ byte && byte < 0xC0
  let extra := if directive.countsCharacters && 0 < directive.width then tails else 0
  { directive with width := directive.width + extra }.pad text

def sign (directive : FormatDirective) (isNegative : Bool) : Bytes :=
  if isNegative then [0x2D] else directive.plainSign

/-! ### Whole numbers -/

def zeroFilled (count : Nat) (digits : Bytes) : Bytes :=
  List.replicate (count - digits.length) 0x30 ++ digits

def withCommas (digits : Bytes) : Bytes :=
  let groups := (Bytes.chunks 3 digits.reverse).toList
  (List.intercalate [0x2C] groups).reverse

/-- The digits of a number with what stands in front of them. -/
def writeNumber (directive : FormatDirective) (mark sign digits : Bytes) : Bytes :=
  let precision := directive.precision.getD 0
  let count :=
    if directive.hasZeros then max precision (directive.width - sign.length) else precision
  let digits := zeroFilled count digits
  let digits := if directive.hasCommas then withCommas digits else digits
  directive.pad (mark ++ sign ++ digits)

def writeWhole (directive : FormatDirective) (value : Int) : Bytes :=
  directive.writeNumber [] (directive.sign (value < 0)) (Bytes.ofText (toString value.natAbs))

/-- The ending of a number that tells a place in an order. -/
def placeEnding (number : Nat) : String :=
  if number / 10 % 10 = 1 then "th"
  else
    match number % 10 with
    | 1 => "st"
    | 2 => "nd"
    | 3 => "rd"
    | _ => "th"

/-- A whole number as a place in an order. -/
def writePlace (directive : FormatDirective) (value : Int) : Bytes :=
  { directive with hasCommas := false }.writeNumber [] (directive.sign (value < 0))
    (Bytes.ofText (toString value.natAbs ++ placeEnding value.natAbs))

def bitsOf (value : Int) : Nat := (value % 0x10000000000000000).toNat

/-- The bits of a whole number as digits to a base, with a mark in front that the directive may ask
for. -/
def writeBits (directive : FormatDirective) (base : Nat) (isUpper : Bool) (mark : String)
    (value : Int) : Bytes :=
  let digits := Bytes.ofText (String.ofList (Nat.toDigits base (bitsOf value)))
  let mark := if directive.isAlternate ∧ value ≠ 0 then Bytes.ofText mark else []
  { directive with hasCommas := false }.writeNumber mark []
    (if isUpper then digits.map Byte.upper else digits)

/-! ### Real numbers -/

/-- Which way a real number is written. -/
inductive RealStyle where
  /-- With a point, as many digits behind it as the precision says. -/
  | positional
  /-- With one digit in front of the point, and an exponent behind the letter. -/
  | scientific (letter : UInt8)
  /-- With as many digits as the precision says: with an exponent if it is below minus four or if
  the digits do not reach the point. -/
  | general (letter : UInt8)
  deriving DecidableEq, Repr

/-- An exponent, of two digits at least. -/
def writeExponent (letter : UInt8) (exponent : Int) : Bytes :=
  [letter, if exponent < 0 then 0x2D else 0x2B] ++
    zeroFilled 2 (Bytes.ofText (toString exponent.natAbs))

/-- The digits of a number with a point, so many behind it; zeros at their end may be left out. -/
def writeDigits (directive : FormatDirective) (decimal : DecimalDigits) (precision : Nat)
    (cutsZeros : Bool) : Bytes :=
  let front := (List.range decimal.whole.toNat).map decimal.digit
  let front := if front = [] then [0x30] else front
  let front := if directive.hasCommas then withCommas front else front
  let zeros := min precision (-decimal.whole).toNat
  let digits := (List.range (precision - zeros)).map fun place =>
    decimal.digit (decimal.whole.toNat + place)
  let back := List.replicate zeros 0x30 ++ digits
  let kept := if cutsZeros then (back.reverse.dropWhile (· == 0x30)).reverse else back
  let isBare := kept = [] && cutsZeros
  if directive.countsCharacters then front ++ [0x2E] ++ (if isBare then [0x30] else kept)
  else if isBare || precision = 0 && !directive.isAlternate then front
  else front ++ [0x2E] ++ kept

/-- The digits of a number with a point behind the first, and an exponent. -/
def writeScientific (directive : FormatDirective) (decimal : DecimalDigits) (letter : UInt8)
    (precision : Nat) (cutsZeros : Bool) : Bytes :=
  directive.writeDigits { decimal with whole := 1 } precision cutsZeros ++
    writeExponent letter (decimal.whole - 1)

/-- A real number without its sign. What is beyond all numbers counts as one of a thousand digits.
Where no digit is asked for, the rest is cut off. -/
def writeMagnitude (directive : FormatDirective) (style : RealStyle) (value : Float) : Bytes :=
  let precision := directive.precision.getD 6
  let exact : DecimalDigits := if value.isInf then ⟨[0x39], 1000⟩ else .ofReal value
  let rounded (count : Int) : DecimalDigits :=
    if value.isInf then exact
    else exact.rounded count (if directive.countsCharacters then 26 else 16)
  match style with
  | .positional =>
    let decimal := if precision = 0 then exact else rounded (exact.whole + precision)
    directive.writeDigits decimal precision directive.countsCharacters
  | .scientific letter =>
    directive.writeScientific (rounded (precision + 1)) letter precision directive.countsCharacters
  | .general letter =>
    let decimal := if precision = 0 then exact else rounded precision
    let exponent := decimal.whole - 1
    let precision := precision - 1
    if exponent < -4 ∨ (precision : Int) < exponent then
      directive.writeScientific decimal letter precision !directive.isAlternate
    else directive.writeDigits decimal (precision - exponent).toNat !directive.isAlternate

def writeReal (directive : FormatDirective) (style : RealStyle) (value : Float) : Bytes :=
  let sign := directive.sign (value < 0)
  if value.isInf && !directive.hasZeros then directive.pad (sign ++ Bytes.ofText "Inf")
  else
    let digits := directive.writeMagnitude style value
    let fill := if directive.hasZeros && !directive.isLeft then directive.width - sign.length else 0
    directive.pad (sign ++ zeroFilled fill digits)

/-! ### Texts -/

def cut (directive : FormatDirective) (text : Bytes) : Bytes :=
  let text := text.untilZero
  match directive.precision with
  | some count =>
    if directive.countsCharacters then ((TextFunction.characters text).take count).flatten
    else text.take count
  | none => text

/-- A text in which a quote is doubled. What is nothing has a text of its own. -/
def writeDoubled (directive : FormatDirective) (quote : UInt8) (text : Option Bytes) : Bytes :=
  directive.padText
    (TextFunction.doubled quote (directive.cut (text.getD (Bytes.ofText "(NULL)"))))

def writeQuoted (directive : FormatDirective) (text : Option Bytes) : Bytes :=
  directive.padText <|
    match text with
    | some text => TextFunction.quoted 0x27 (directive.cut text)
    | none => directive.cut (Bytes.ofText "NULL")

/-- The first character, as often as the precision says. In a text without any it is a zero byte. -/
def writeCharacter (directive : FormatDirective) (text : Bytes) : Bytes :=
  let character := (((TextFunction.characters text).head?).getD [0]).take 4
  { directive with countsCharacters := true }.padText
    (List.replicate (max 1 (directive.precision.getD 1)) character).flatten

/-- What a directive writes for a value, by its letter; none where the letter has no meaning. -/
def write? (directive : FormatDirective) (storage : TextStorage) (letter : UInt8) (value : Value) :
    Option Bytes :=
  let text := value.textBytes? storage
  let whole := value.toWhole
  match Char.ofNat letter.toNat with
  | 'd' | 'i' => some (directive.writeWhole whole)
  | 'r' => some (directive.writePlace whole)
  | 'u' => some ({ directive with plainSign := [] }.writeWhole (bitsOf whole))
  | 'x' => some (directive.writeBits 16 false "0x" whole)
  | 'X' => some (directive.writeBits 16 true "0X" whole)
  | 'p' => some (directive.writeBits 16 true "0x" whole)
  | 'o' => some (directive.writeBits 8 false "0" whole)
  | 'f' => some (directive.writeReal .positional value.toReal)
  | 'e' | 'E' => some (directive.writeReal (.scientific letter) value.toReal)
  | 'g' => some (directive.writeReal (.general 0x65) value.toReal)
  | 'G' => some (directive.writeReal (.general 0x45) value.toReal)
  | 's' | 'z' => some (directive.padText (directive.cut (text.getD [])))
  | 'c' => some (directive.writeCharacter (text.getD []))
  | 'q' => some (directive.writeDoubled 0x27 text)
  | 'w' => some (directive.writeDoubled 0x22 text)
  | 'Q' => some (directive.writeQuoted text)
  | _ => none

end FormatDirective

/-- A number of 32 bits at the beginning of a text, which a star takes from the values. -/
def readFormatCount (text : Bytes) (values : List Value) : Int × Bytes × List Value :=
  match text with
  | 0x2A :: rest =>
    let count := Int.bmod (values.headD .null).toWhole 0x100000000
    (count, rest, values.drop 1)
  | _ =>
    let digits := text.takeWhile Byte.isDigit
    ((Numeral.natOf digits % 0x80000000 : Nat), text.drop digits.length, values)

def maxTextSize : Nat := 1000000000

/-- Reads the width and the precision of a directive; a negative width puts a value to the left. -/
def FormatDirective.readSizes (directive : FormatDirective) (text : Bytes) (values : List Value) :
    FormatDirective × Bytes × List Value :=
  let (width, text, values) := readFormatCount text values
  let directive :=
    { directive with
      width := if width = -0x80000000 then 0 else width.natAbs
      isLeft := directive.isLeft || width < 0 }
  match text with
  | 0x2E :: text =>
    let (count, text, values) := readFormatCount text values
    let precision := if count = -0x80000000 then none else some count.natAbs
    ({ directive with precision }, text, values)
  | _ => (directive, text, values)

/-- The text without up to two letters that tell the size of a number. -/
def withoutSizeMark : Bytes → Bytes
  | 0x6C :: 0x6C :: rest => rest
  | 0x6C :: rest => rest
  | text => text

/-- The text that a format makes of values. The fuel bounds the steps. -/
def formatted (storage : TextStorage) : Nat → Bytes → List Value → Outcome Bytes
  | 0, _, _ => .ok []
  | _, [], _ => .ok []
  | _, [0x25], _ => .ok [0x25]
  | fuel + 1, byte :: rest, values =>
    if byte ≠ 0x25 then (formatted storage fuel rest values).map (byte :: ·)
    else do
      let (directive, rest) := FormatDirective.plain.readFlags rest
      let (directive, rest, values) := directive.readSizes rest values
      if maxTextSize < max directive.width (directive.precision.getD 0) then
        throw (.value "string or blob too big")
      match withoutSizeMark rest with
      | [] => return []
      | 0x25 :: rest => return directive.pad [0x25] ++ (← formatted storage fuel rest values)
      | 0x6E :: rest => formatted storage fuel rest values
      | letter :: rest =>
        match directive.write? storage letter (values.headD .null) with
        | some written => return written ++ (← formatted storage fuel rest (values.drop 1))
        | none => return []

end ImageAudit.Sql
