/-! # Text

Tests and cuts on texts, stated on their characters: leading and trailing pieces, occurrences,
the text around a separator, lines, and trimming of white space.
-/

namespace ImageAudit.Text

def startsWith (text piece : String) : Bool := piece.toList.isPrefixOf text.toList

def endsWith (text piece : String) : Bool := piece.toList.isSuffixOf text.toList

/-- What follows the first occurrence of the piece. -/
def afterOccurrence? (piece : List Char) : List Char → Option (List Char)
  | [] => if piece = [] then some [] else none
  | head :: rest =>
    if piece.isPrefixOf (head :: rest) then some ((head :: rest).drop piece.length)
    else afterOccurrence? piece rest

def contains (text piece : String) : Bool := (afterOccurrence? piece.toList text.toList).isSome

/-- What is left of the text after the piece it begins with. -/
def stripStart? (text piece : String) : Option String :=
  if startsWith text piece then some (String.ofList (text.toList.drop piece.length)) else none

/-- The texts before and after the first separator. -/
def splitFirst? (separator : Char) (text : String) : Option (String × String) :=
  match text.toList.dropWhile (· != separator) with
  | [] => none
  | _ :: after =>
    some (String.ofList (text.toList.takeWhile (· != separator)), String.ofList after)

/-- The texts before and after the last separator. -/
def splitLast? (separator : Char) (text : String) : Option (String × String) :=
  match text.toList.reverse.dropWhile (· != separator) with
  | [] => none
  | _ :: before =>
    some (String.ofList before.reverse,
      String.ofList (text.toList.reverse.takeWhile (· != separator)).reverse)

/-- The text without the copies of a character at its end. -/
def dropTrailing (last : Char) (text : String) : String :=
  String.ofList (text.toList.reverse.dropWhile (· == last)).reverse

/-- A line without the carriage return that belongs to its ending. -/
def dropReturn (line : List Char) : List Char :=
  if line.getLast? = some '\r' then line.dropLast else line

/-- The lines of a text: pieces ended by a line feed, with or without a carriage return before it.
What follows the last line feed is a line when it is not empty. -/
def lines (text : List Char) : List (List Char) :=
  let pieces := text.splitOn '\n'
  let last := pieces.getLastD []
  pieces.dropLast.map dropReturn ++ (if last = [] then [] else [last])

/-- White space in the sense of the Unicode property `White_Space`. -/
def isBlank (c : Char) : Bool :=
  ('\t' ≤ c && c ≤ '\r') || c == ' ' || c == '\u0085' || c == '\u00A0' || c == '\u1680' ||
    ('\u2000' ≤ c && c ≤ '\u200A') || c == '\u2028' || c == '\u2029' || c == '\u202F' ||
    c == '\u205F' || c == '\u3000'

/-- The text without white space at either end. -/
def trim (text : String) : String :=
  String.ofList ((text.toList.dropWhile isBlank).reverse.dropWhile isBlank).reverse

/-- Two decimal digits at least, zeros in front. -/
def twoDigits (n : Nat) : String := if n < 10 then "0" ++ toString n else toString n

def isAsciiAlnum (c : Char) : Bool :=
  ('a' ≤ c && c ≤ 'z') || ('A' ≤ c && c ≤ 'Z') || ('0' ≤ c && c ≤ '9')

/-- The letter in lower case when it is an ASCII letter. -/
def asciiLower (c : Char) : Char :=
  if 'A' ≤ c && c ≤ 'Z' then Char.ofNat (c.toNat + 32) else c

/-- Whether the texts differ at most in the case of ASCII letters. -/
def eqIgnoringCase (a b : String) : Bool :=
  a.toList.map asciiLower = b.toList.map asciiLower

end ImageAudit.Text
