import ImageAudit.Sql.Numeral

/-! # Values

A value is nothing, a whole or real number, a text or a string of bytes. Where a column or a
comparison prefers numbers or texts, a value is converted if nothing is lost. Values of different
classes have an order, too: nothing comes first, then numbers, texts and bytes.
-/

namespace ImageAudit.Sql

inductive Value where
  | null
  | integer (value : Int)
  | real (value : Float)
  | text (content : Bytes)
  | blob (content : Bytes)
  deriving BEq, Repr

/-- How a file stores texts, which are UTF-8 here. -/
structure TextStorage where
  encode : Bytes → Bytes
  decode : Bytes → Bytes

/-- Texts are stored as they are. -/
def TextStorage.plain : TextStorage := ⟨id, id⟩

/-! ## Affinities -/

/-- The class of values that a column prefers. -/
inductive Affinity where
  /-- That of an expression that is no column. -/
  | none
  | blob
  | text
  | numeric
  | integer
  | real
  deriving DecidableEq, Repr

namespace Affinity

def isNumeric : Affinity → Bool
  | numeric | integer | real => true
  | _ => false

/-- The affinity that the bytes of a type name give, and where the size of a value may be stated.
`recent` holds the last four bytes in lower case, the last one first. -/
def scanType (affinity : Affinity) (size : Option Bytes) (recent : Bytes) :
    Bytes → Affinity × Option Bytes
  | [] => (affinity, size)
  | byte :: rest =>
    let recent := (Byte.lower byte :: recent).take 4
    let endsWith (name : String) : Bool := (Bytes.ofText name).reverse.isPrefixOf recent
    let isOpen := affinity = numeric || affinity = real
    if endsWith "char" then scanType text (some rest) recent rest
    else if endsWith "clob" || endsWith "text" then scanType text size recent rest
    else if endsWith "blob" && isOpen then
      scanType blob (if rest.head? = some 0x28 then some rest else size) recent rest
    else if (endsWith "real" || endsWith "floa" || endsWith "doub") && affinity = numeric then
      scanType real size recent rest
    else if endsWith "int" then (integer, size)
    else scanType affinity size recent rest

/-- A type name without the quotes that it begins with; what follows these does not count. -/
def unquoted (type : Bytes) : Bytes :=
  match type with
  | 0x5B :: rest => ((Token.readQuoted 0x5D rest).map (·.1)).getD type
  | quote :: rest =>
    if quote = 0x22 || quote = 0x27 || quote = 0x60 then
      ((Token.readQuoted quote rest).map (·.1)).getD type
    else type
  | [] => []

def ofType (type : Bytes) : Affinity := (scanType numeric Option.none [] (unquoted type)).1

/-- How large values of a type are thought to be, in units of a number. -/
def sizeOfType (type : Bytes) : Nat :=
  match scanType numeric Option.none [] (unquoted type) with
  | (affinity, size) =>
    if affinity.isNumeric then 1
    else
      let stated :=
        match size with
        | Option.none => 16
        | some rest =>
          let digits := (rest.dropWhile fun byte => !Byte.isDigit byte).takeWhile Byte.isDigit
          let stated := Numeral.natOf digits
          if stated < 0x80000000 then stated else 0
      min (stated / 4 + 1) 255

end Affinity

namespace Value

/-! ## Conversions -/

/-- A text as a number, if it is one as a whole. -/
def numberOfText? (text : Bytes) (prefersWhole : Bool) : Option Value :=
  let numeral := Numeral.read text
  if !numeral.isAll then none
  else if numeral.isPlain && inWholeRange numeral.whole then some (integer numeral.whole)
  else
    let value := numeral.toFloat
    match Real.whole? value with
    | some whole => some (if prefersWhole then integer whole else real value)
    | none => some (real value)

/-- The text of a number, a text or bytes; none for nothing. -/
def textBytes? (storage : TextStorage) : Value → Option Bytes
  | null => none
  | integer value => some (Bytes.ofText (toString value))
  | real value => some (Bytes.ofText (Real.text value))
  | text content => some content
  | blob content => some (storage.decode content)

/-- The value as a column of the affinity keeps it. -/
def withAffinity (affinity : Affinity) (value : Value) : Value :=
  match affinity, value with
  | .text, integer number => text (Bytes.ofText (toString number))
  | .text, real number => text (Bytes.ofText (Real.text number))
  | .numeric, text content | .integer, text content | .real, text content =>
    (numberOfText? content true).getD value
  | .numeric, real number | .integer, real number | .real, real number =>
    match Real.whole? number with
    | some whole => integer whole
    | none => value
  | _, _ => value

/-- The value as a column of real numbers yields it. -/
def asReal : Value → Value
  | integer value => real (Real.ofInt value)
  | value => value

/-- The value as a whole number: the beginning of a text counts, and nothing is zero. -/
def toWhole (value : Value) : Int :=
  match value with
  | null => 0
  | integer number => number
  | real number => Real.truncate number
  | text content | blob content =>
    let digits := Numeral.readSign (content.dropWhile Byte.isSpace)
    let size : Int := Numeral.natOf (digits.2.takeWhile Byte.isDigit)
    clampWhole (if digits.1 then -size else size)

def toReal (value : Value) : Float :=
  match value with
  | null => 0
  | integer number => Real.ofInt number
  | real number => number
  | text content | blob content => (Numeral.read content).toFloat

/-- The number that the value is in arithmetic; none for nothing. -/
def number? (value : Value) : Option Value :=
  match value with
  | null => none
  | integer _ | real _ => some value
  | text content | blob content =>
    let numeral := Numeral.read content
    match numeral.leadingWhole? with
    | some whole => some (integer whole)
    | none => some (real numeral.toFloat)

def cast (storage : TextStorage) (affinity : Affinity) (value : Value) : Value :=
  match value with
  | null => null
  | _ =>
    match affinity with
    | .none | .blob =>
      match value with
      | blob content => blob content
      | _ => blob (storage.encode ((value.textBytes? storage).getD []))
    | .text => text ((value.textBytes? storage).getD [])
    | .integer => integer value.toWhole
    | .real => real value.toReal
    | .numeric =>
      match value with
      | text content | blob content =>
        let numeral := Numeral.read content
        match numeral.leadingWhole?, Real.whole? numeral.toFloat with
        | some whole, _ => integer whole
        | none, some whole =>
          if whole.natAbs < 0x8000000000000 then integer whole else real numeral.toFloat
        | none, none => real numeral.toFloat
      | _ => value

/-- Whether the value holds as a condition; none for nothing. -/
def truth? (value : Value) : Option Bool :=
  match value with
  | null => none
  | integer number => some (number != 0)
  | _ => some (value.toReal != 0)

/-- A truth value, which is nothing where it is not known. -/
def ofTruth : Option Bool → Value
  | none => null
  | some holds => integer (if holds then 1 else 0)

end Value

/-! ## Order -/

inductive Collation where
  | binary
  | noCase
  | trimmed
  deriving DecidableEq, Repr

namespace Collation

def ofName? (name : Bytes) : Option Collation :=
  if isNamed name "binary" then some binary
  else if isNamed name "nocase" then some noCase
  else if isNamed name "rtrim" then some trimmed
  else none

/-- What is compared of a text. -/
def key (collation : Collation) (text : Bytes) : Bytes :=
  match collation with
  | binary => text
  | noCase => text.map Byte.lower
  | trimmed => (text.reverse.dropWhile (· == 0x20)).reverse

end Collation

def compareBytes : Bytes → Bytes → Ordering
  | [], [] => .eq
  | [], _ => .lt
  | _, [] => .gt
  | a :: as, b :: bs => if a < b then .lt else if b < a then .gt else compareBytes as bs

namespace Value

/-- The order of a whole and a real number. -/
def compareMixed (whole : Int) (value : Float) : Ordering :=
  if value.isNaN then .gt
  else if value < -9223372036854775808.0 then .gt
  else if value ≥ 9223372036854775808.0 then .lt
  else
    let truncated := Real.truncate value
    if whole < truncated then .lt
    else if truncated < whole then .gt
    else
      let exact := Real.ofInt whole
      if exact < value then .lt else if value < exact then .gt else .eq

def rank : Value → Nat
  | null => 0
  | integer _ | real _ => 1
  | text _ => 2
  | blob _ => 3

def order (collation : Collation) (a b : Value) : Ordering :=
  match a, b with
  | integer x, integer y => compare x y
  | integer x, real y => compareMixed x y
  | real x, integer y => (compareMixed y x).swap
  | real x, real y => if x < y then .lt else if y < x then .gt else .eq
  | text x, text y => compareBytes (collation.key x) (collation.key y)
  | blob x, blob y => compareBytes x y
  | _, _ => compare a.rank b.rank

end Value

end ImageAudit.Sql
