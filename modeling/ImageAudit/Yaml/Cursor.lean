import ImageAudit.Text

/-! # Reading YAML text

A cursor is a place in the text of a document: what is left, and where it is. Lines count, because a
simple key must stand on one line, and columns count, because they are what nests blocks. Columns
are counted in characters, but how long a key may be is counted in bytes.
-/

namespace ImageAudit.Yaml

/-- Ends a line. -/
def isBreak (c : Char) : Bool :=
  c == '\r' || c == '\n' || c == '\u0085' || c == '\u2028' || c == '\u2029'

/-- A space or a tab. -/
def isBlank (c : Char) : Bool := c == ' ' || c == '\t'

/-- A space, a tab, or what ends a line. -/
def isSpacing (c : Char) : Bool := isBlank c || isBreak c

/-- Whether no text follows on the line or the text is set off by a blank. -/
def isGap : Option Char → Bool
  | none => true
  | some c => isSpacing c

def isNameChar (c : Char) : Bool := Text.isAsciiAlnum c || c == '_' || c == '-'

def isDigit (c : Char) : Bool := '0' ≤ c && c ≤ '9'

def isAllowed (c : Char) : Bool :=
  c == '\t' || c == '\n' || c == '\r' || (' ' ≤ c && c ≤ '~') || c == '\u0085' ||
    ('\u00A0' ≤ c && c ≤ '\uFFFD') || 0x10000 ≤ c.toNat

def sizeOf (text : List Char) : Nat := text.foldl (· + ·.utf8Size) 0

structure Cursor where
  rest : List Char
  /-- The bytes before the place. -/
  index : Nat
  line : Nat
  column : Nat
  deriving DecidableEq, Repr

namespace Cursor

def start (text : List Char) : Cursor := ⟨text, 0, 0, 0⟩

def head? (cursor : Cursor) : Option Char := cursor.rest.head?

/-- The character some places further on. -/
def ahead? (cursor : Cursor) (distance : Nat) : Option Char := cursor.rest[distance]?

def sees (cursor : Cursor) (c : Char) : Bool := cursor.head? == some c

/-- Whether the line has no more text. -/
def atLineEnd (cursor : Cursor) : Bool :=
  match cursor.head? with
  | some c => isBreak c
  | none => true

/-- The place some characters further on, on the same line. -/
def skip (cursor : Cursor) (count : Nat) : Cursor :=
  { cursor with
    rest := cursor.rest.drop count
    index := cursor.index + sizeOf (cursor.rest.take count)
    column := cursor.column + count }

/-- The characters of the line that satisfy a condition, and the place after them. -/
def takeWhile (cursor : Cursor) (condition : Char → Bool) : List Char × Cursor :=
  let taken := cursor.rest.takeWhile fun c => condition c && !isBreak c
  (taken, cursor.skip taken.length)

/-- The place after the characters of the line that satisfy a condition. -/
def skipWhile (cursor : Cursor) (condition : Char → Bool) : Cursor := (cursor.takeWhile condition).2

/-- The place at the beginning of the next line, after a line end of some characters. -/
def nextLine (cursor : Cursor) (count : Nat) : Cursor :=
  ⟨cursor.rest.drop count, cursor.index + sizeOf (cursor.rest.take count), cursor.line + 1, 0⟩

/-- The place after a mark of the byte order that begins the line. -/
def skipByteOrderMark (cursor : Cursor) : Cursor :=
  if cursor.column = 0 ∧ cursor.sees '\uFEFF' then cursor.skip 1 else cursor

/-- What ends the line, as it counts in a scalar, and the next line. At the end of the text, nothing
ends the line. -/
def readBreak (cursor : Cursor) : List Char × Cursor :=
  match cursor.rest with
  | '\r' :: '\n' :: _ => (['\n'], cursor.nextLine 2)
  | c :: _ =>
    if c = '\u2028' ∨ c = '\u2029' then ([c], cursor.nextLine 1)
    else if isBreak c then (['\n'], cursor.nextLine 1)
    else ([], cursor)
  | [] => ([], cursor)

/-- Whether a line begins here with a mark of three equal characters that stands alone. -/
def atMark (cursor : Cursor) (mark : Char) : Bool :=
  cursor.column == 0 && cursor.rest.take 3 == [mark, mark, mark] && isGap (cursor.ahead? 3)

/-- Whether a line begins here with a mark that ends or begins a document. -/
def atDocumentMark (cursor : Cursor) : Bool := cursor.atMark '-' || cursor.atMark '.'

/-- The end of the line, when only blanks and a comment are left on it. -/
def skipLineRest? (cursor : Cursor) : Option Cursor :=
  let cursor := cursor.skipWhile isBlank
  let cursor := if cursor.sees '#' then cursor.skipWhile fun _ => true else cursor
  if cursor.atLineEnd then some cursor.readBreak.2 else none

end Cursor

/-- The blanks and line ends between two pieces of a scalar. -/
structure Gap where
  isBroken : Bool
  /-- The blanks, as long as no line ended. -/
  blanks : List Char
  /-- What ended the first line. -/
  first : List Char
  /-- What ended the lines after it, which are empty. -/
  more : List Char
  deriving DecidableEq, Repr

namespace Gap

def empty : Gap := ⟨false, [], [], []⟩

/-- A line end that was escaped. -/
def escaped : Gap := ⟨true, [], [], []⟩

/-- What stands in the scalar for the gap: one line end counts as a space, and of several the first
is left out. -/
def text (gap : Gap) : List Char :=
  if !gap.isBroken then gap.blanks
  else if gap.first = ['\n'] then (if gap.more = [] then [' '] else gap.more)
  else gap.first ++ gap.more

/-- Reads on in a gap. A tab in the columns below the limit is refused once a line ended. The fuel
bounds the characters. -/
def readFrom (limit : Nat) : Nat → Gap → Cursor → Option (Gap × Cursor)
  | 0, gap, cursor => some (gap, cursor)
  | fuel + 1, gap, cursor =>
    match cursor.head? with
    | none => some (gap, cursor)
    | some c =>
      if isBlank c then
        if !gap.isBroken then
          readFrom limit fuel { gap with blanks := gap.blanks ++ [c] } (cursor.skip 1)
        else if c = '\t' ∧ cursor.column < limit then none
        else readFrom limit fuel gap (cursor.skip 1)
      else if isBreak c then
        let (ending, next) := cursor.readBreak
        readFrom limit fuel
          (if gap.isBroken then { gap with more := gap.more ++ ending } else ⟨true, [], ending, []⟩)
          next
      else some (gap, cursor)

/-- Reads the gap at a place, after what was read of it before. -/
def read (limit : Nat) (gap : Gap) (cursor : Cursor) : Option (Gap × Cursor) :=
  readFrom limit cursor.rest.length gap cursor

end Gap

end ImageAudit.Yaml
