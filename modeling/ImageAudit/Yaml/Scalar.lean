import ImageAudit.Text.Hex
import ImageAudit.Yaml.Cursor

/-! # Scalars of a YAML document

A scalar is written plain, in quotes of either kind, or as a block of lines. A plain or quoted
scalar may go on over lines, which are joined; a block keeps its lines, or joins them too, as its
mark says.
-/

namespace ImageAudit.Yaml

/-! ## Plain scalars -/

/-- The piece of a plain scalar up to a gap or to what ends the scalar: a colon that is set off, or
in a flow collection a mark of it. There a colon must not stand before such a mark. -/
def plainPiece? (inFlow : Bool) : List Char → Option (List Char)
  | [] => some []
  | c :: rest =>
    if isSpacing c then some []
    else if inFlow && c == ':' && rest.head?.any (",?[]\x7b\x7d".toList.contains ·) then
      none
    else if c == ':' && isGap rest.head? then some []
    else if inFlow && ",[]\x7b\x7d".toList.contains c then some []
    else (plainPiece? inFlow rest).map (c :: ·)

structure PlainScalar where
  text : List Char
  /-- Whether a line ended after it. -/
  endsLine : Bool
  deriving DecidableEq, Repr

/-- Reads on in a plain scalar whose further lines begin at a column or to the right of it. The fuel
bounds the number of its pieces. -/
def readPlainFrom (inFlow : Bool) (column : Nat) :
    Nat → List Char → Gap → Cursor → Option (PlainScalar × Cursor)
  | 0, text, gap, cursor => some (⟨text, gap.isBroken⟩, cursor)
  | fuel + 1, text, gap, cursor =>
    if cursor.atDocumentMark || cursor.sees '#' then some (⟨text, gap.isBroken⟩, cursor)
    else do
      let piece ← plainPiece? inFlow cursor.rest
      let cursor := cursor.skip piece.length
      let (text, gap) :=
        if piece = [] then (text, gap) else (text ++ gap.text ++ piece, Gap.empty)
      if !cursor.head?.any isSpacing then return (⟨text, gap.isBroken⟩, cursor)
      let (gap, cursor) ← gap.read column cursor
      if !inFlow && cursor.column < column then return (⟨text, gap.isBroken⟩, cursor)
      readPlainFrom inFlow column fuel text gap cursor

def readPlain (inFlow : Bool) (column : Nat) (cursor : Cursor) : Option (PlainScalar × Cursor) :=
  readPlainFrom inFlow column (cursor.rest.length + 1) [] Gap.empty cursor

/-! ## Quoted scalars -/

/-- The character that a letter after a backslash stands for. -/
def escaped? (letter : Char) : Option Char :=
  match letter with
  | '0' => some '\x00'
  | 'a' => some '\x07'
  | 'b' => some '\x08'
  | 't' | '\t' => some '\t'
  | 'n' => some '\n'
  | 'v' => some '\x0b'
  | 'f' => some '\x0c'
  | 'r' => some '\r'
  | 'e' => some '\x1b'
  | ' ' | '"' | '/' | '\\' => some letter
  | 'N' => some '\u0085'
  | '_' => some '\u00A0'
  | 'L' => some '\u2028'
  | 'P' => some '\u2029'
  | _ => none

/-- The digits after a letter that introduces the number of a character. -/
def numberSize? (letter : Char) : Option Nat :=
  match letter with
  | 'x' => some 2
  | 'u' => some 4
  | 'U' => some 8
  | _ => none

/-- The character that some text after a backslash stands for, and the length of that text. -/
def readEscape? (text : List Char) : Option (Char × Nat) := do
  let letter ← text.head?
  match numberSize? letter with
  | none => return (← escaped? letter, 1)
  | some size =>
    let digits := (text.drop 1).take size
    let number ← Hex.natOf? digits
    if digits.length < size ∨ !number.isValidChar then failure
    return (Char.ofNat number, size + 1)

/-- The piece of a quoted scalar up to a gap or the closing quote, whether an escaped line end
follows, and the place after it. The fuel bounds the characters. -/
def readQuotedPiece (quote : Char) : Nat → List Char → Cursor → Option (List Char × Bool × Cursor)
  | 0, piece, cursor => some (piece, false, cursor)
  | fuel + 1, piece, cursor =>
    match cursor.rest with
    | [] => some (piece, false, cursor)
    | c :: rest =>
      if isSpacing c then some (piece, false, cursor)
      else if c = quote then
        if quote = '\'' ∧ rest.head? = some quote then
          readQuotedPiece quote fuel (piece ++ [quote]) (cursor.skip 2)
        else some (piece, false, cursor)
      else if quote = '"' ∧ c = '\\' then
        if rest.head?.any isBreak then some (piece, true, (cursor.skip 1).readBreak.2)
        else do
          let (char, size) ← readEscape? rest
          readQuotedPiece quote fuel (piece ++ [char]) (cursor.skip (1 + size))
      else readQuotedPiece quote fuel (piece ++ [c]) (cursor.skip 1)

/-- Reads on in a quoted scalar. The fuel bounds the number of its pieces. -/
def readQuotedFrom (quote : Char) : Nat → List Char → Cursor → Option (List Char × Cursor)
  | 0, _, _ => none
  | fuel + 1, text, cursor =>
    if cursor.atDocumentMark || cursor.rest.isEmpty then none
    else do
      let (piece, isEscaped, cursor) ← readQuotedPiece quote cursor.rest.length [] cursor
      if cursor.sees quote then return (text ++ piece, cursor.skip 1)
      let (gap, cursor) ← (if isEscaped then Gap.escaped else Gap.empty).read 0 cursor
      readQuotedFrom quote fuel (text ++ piece ++ gap.text) cursor

/-- Reads a quoted scalar from its opening quote on. -/
def readQuoted (quote : Char) (cursor : Cursor) : Option (List Char × Cursor) :=
  readQuotedFrom quote (cursor.rest.length + 1) [] (cursor.skip 1)

/-! ## Blocks of lines -/

/-- What becomes of the line ends after a block. -/
inductive Chomping where
  | strip
  /-- The first one is kept. -/
  | clip
  | keep
  deriving DecidableEq, Repr

/-- How a block is to be read. -/
structure BlockHeader where
  chomping : Chomping
  /-- How far the lines are set in, when the header says so. -/
  increment : Option Nat
  deriving DecidableEq, Repr

namespace BlockHeader

/-- Reads what a header says of line ends. -/
def readChomping (cursor : Cursor) : Option Chomping × Cursor :=
  if cursor.sees '+' then (some .keep, cursor.skip 1)
  else if cursor.sees '-' then (some .strip, cursor.skip 1)
  else (none, cursor)

/-- Reads what a header says of how far lines are set in; zero is refused. -/
def readIncrement? (cursor : Cursor) : Option (Option Nat × Cursor) :=
  match cursor.head? with
  | some c =>
    if c = '0' then none
    else if isDigit c then some (some (c.toNat - 48), cursor.skip 1)
    else some (none, cursor)
  | none => some (none, cursor)

/-- Reads a header, the two parts in either order. -/
def read? (cursor : Cursor) : Option (BlockHeader × Cursor) := do
  let (chomping, cursor) := readChomping cursor
  let (increment, cursor) ← readIncrement? cursor
  let (later, cursor) :=
    if chomping.isNone && increment.isSome then readChomping cursor else (none, cursor)
  return (⟨(chomping.or later).getD .clip, increment⟩, cursor)

end BlockHeader

/-- The empty lines before a line of a block, and the line's column. -/
structure BlockMargin where
  /-- What ends the empty lines. -/
  breaks : List Char
  /-- The rightmost column that was reached. -/
  reached : Nat
  deriving DecidableEq, Repr

/-- Skips empty lines and spaces, these up to the indentation of the block if it is known. The fuel
bounds the lines. -/
def readMarginFrom (indent : Option Nat) :
    Nat → BlockMargin → Cursor → Option (BlockMargin × Cursor)
  | 0, margin, cursor => some (margin, cursor)
  | fuel + 1, margin, cursor =>
    let spaces := (cursor.takeWhile (· == ' ')).1.length
    let count := match indent with
      | some indent => min spaces (indent - cursor.column)
      | none => spaces
    let cursor := cursor.skip count
    let margin := { margin with reached := max margin.reached cursor.column }
    if cursor.sees '\t' && indent.all fun indent => cursor.column < indent then none
    else if cursor.head?.any isBreak then
      let (ending, next) := cursor.readBreak
      readMarginFrom indent fuel { margin with breaks := margin.breaks ++ ending } next
    else some (margin, cursor)

/-- Skips empty lines and spaces before a line of a block. -/
def readMargin (indent : Option Nat) (cursor : Cursor) : Option (BlockMargin × Cursor) :=
  readMarginFrom indent (cursor.rest.length + 1) ⟨[], 0⟩ cursor

/-- A block in the course of being read. -/
structure BlockText where
  text : List Char
  /-- What ended the last line. -/
  ending : List Char
  /-- What ended the empty lines after it. -/
  breaks : List Char
  /-- Whether the last line began with a blank. -/
  wasSetIn : Bool
  deriving DecidableEq, Repr

namespace BlockText

/-- What stands between the last line and the next: a line end that is joined is a space when no
empty line follows. Lines that begin with a blank are not joined. -/
def separator (block : BlockText) (joins isSetIn : Bool) : List Char :=
  (if joins && block.ending.head? == some '\n' && !block.wasSetIn && !isSetIn then
    (if block.breaks = [] then [' '] else [])
  else block.ending) ++ block.breaks

/-- Reads the lines that begin at a column. The fuel bounds their number. -/
def readFrom (joins : Bool) (column : Nat) : Nat → BlockText → Cursor → Option (BlockText × Cursor)
  | 0, block, cursor => some (block, cursor)
  | fuel + 1, block, cursor =>
    if cursor.column ≠ column ∨ cursor.rest = [] then some (block, cursor)
    else do
      let isSetIn := cursor.head?.any isBlank
      let (line, cursor) := cursor.takeWhile fun _ => true
      let (ending, cursor) := cursor.readBreak
      let (margin, cursor) ← readMargin (some column) cursor
      readFrom joins column fuel
        ⟨block.text ++ block.separator joins isSetIn ++ line, ending, margin.breaks, isSetIn⟩ cursor

def chomped (block : BlockText) : Chomping → List Char
  | .strip => block.text
  | .clip => block.text ++ block.ending
  | .keep => block.text ++ block.ending ++ block.breaks

end BlockText

/-- Reads a block from its mark on, inside a block that is set in to `indent`; none is below zero.
`joins` tells whether lines are joined. -/
def readBlock (joins : Bool) (indent : Int) (cursor : Cursor) : Option (List Char × Cursor) := do
  let (header, cursor) ← BlockHeader.read? (cursor.skip 1)
  let cursor ← cursor.skipLineRest?
  let stated := header.increment.map fun increment => (max indent 0).toNat + increment
  let (margin, cursor) ← readMargin stated cursor
  let column := stated.getD (max margin.reached (max (indent + 1).toNat 1))
  let (block, cursor) ← BlockText.readFrom joins column (cursor.rest.length + 1)
    ⟨[], [], margin.breaks, false⟩ cursor
  return (block.chomped header.chomping, cursor)

end ImageAudit.Yaml
