import ImageAudit.Yaml.Scalar
import ImageAudit.Yaml.Tag

/-! # Reading tokens

Blocks are nested by their columns: a line that begins further right opens a block, one that begins
further left ends blocks. Whether a piece of text is the key of a pair shows only at the colon after
it, so the place of each piece that could be one is kept, and the key's token is put in there later.
Such a key must end on its line and within 1024 bytes. Brackets and braces set columns aside
until they are closed.
-/

namespace ImageAudit.Yaml

/-- A piece of text that is a key if a colon follows. -/
structure SimpleKey where
  /-- Whether the text is wrong unless it is a key. -/
  isRequired : Bool
  /-- The number of tokens before it. -/
  position : Nat
  index : Nat
  line : Nat
  column : Nat
  deriving DecidableEq, Repr

namespace SimpleKey

/-- The most bytes from the beginning of a key to its colon. -/
def maxLength : Nat := 1024

/-- Whether the key cannot end at a place any more. -/
def isStale (key : SimpleKey) (cursor : Cursor) : Bool :=
  key.line < cursor.line || key.index + maxLength < cursor.index

end SimpleKey

/-- A document in the course of being read as tokens. -/
structure Lexer where
  cursor : Cursor
  tokens : Array Token
  /-- The column of the innermost block; less than zero outside of all. -/
  indent : Int
  /-- The columns of the blocks around it, innermost first. -/
  outer : List Int
  /-- Whether a key may begin at the place. -/
  allowsKey : Bool
  /-- The possible key in the innermost collection. -/
  key : Option SimpleKey
  /-- The possible keys around each flow collection that is open, innermost first. -/
  keysAround : List (Option SimpleKey)

namespace Lexer

def start (text : List Char) : Lexer := ⟨Cursor.start text, #[], -1, [], true, none, []⟩

def inFlow (lexer : Lexer) : Bool := !lexer.keysAround.isEmpty

def add (lexer : Lexer) (token : Token) : Lexer :=
  { lexer with tokens := lexer.tokens.push token }

/-- Puts in a token at a position among those that were read. -/
def insert (lexer : Lexer) (position : Nat) (token : Token) : Lexer :=
  { lexer with
    tokens := (lexer.tokens.extract 0 position).push token ++
      lexer.tokens.extract position lexer.tokens.size }

/-- Moves on by some characters. -/
def skip (lexer : Lexer) (count : Nat) : Lexer := { lexer with cursor := lexer.cursor.skip count }

/-- States whether a key may come next. -/
def allowing (lexer : Lexer) (allowsKey : Bool) : Lexer := { lexer with allowsKey := allowsKey }

/-- Nothing for a possible key that is given up; a key that is required must not be. -/
def giveUp? (key : Option SimpleKey) : Option (Option SimpleKey) :=
  if key.any (·.isRequired) then none else some none

/-- Gives up the possible key of the innermost collection. -/
def dropKey? (lexer : Lexer) : Option Lexer := do
  return { lexer with key := ← giveUp? lexer.key }

/-- Gives up the possible keys that cannot end here any more. -/
def dropStaleKeys? (lexer : Lexer) : Option Lexer := do
  let check := fun (key : Option SimpleKey) =>
    if key.any (·.isStale lexer.cursor) then giveUp? key else some key
  return { lexer with key := ← check lexer.key, keysAround := ← lexer.keysAround.mapM check }

/-- Notes that a key may begin here. -/
def noteKey? (lexer : Lexer) : Option Lexer := do
  if !lexer.allowsKey then return lexer
  let cursor := lexer.cursor
  let isRequired := !lexer.inFlow && lexer.indent == cursor.column
  let lexer ← lexer.dropKey?
  return { lexer with
    key := some ⟨isRequired, lexer.tokens.size, cursor.index, cursor.line, cursor.column⟩ }

/-- Ends blocks until the columns of those left lie at the given one or to the left of it. -/
def endBlocksFrom (column : Int) : List Int → Lexer → Lexer
  | [], lexer => lexer
  | around :: outer, lexer =>
    if column < lexer.indent then
      endBlocksFrom column outer ({ lexer with indent := around, outer := outer }.add .blockEnd)
    else lexer

/-- Ends the blocks to the right of a column. -/
def endBlocks (lexer : Lexer) (column : Int) : Lexer :=
  if lexer.inFlow then lexer else endBlocksFrom column lexer.outer lexer

/-- Opens a block at a column, if it lies to the right of the innermost one. -/
def openBlock (lexer : Lexer) (column : Nat) (token : Token) (position : Nat) : Lexer :=
  if lexer.inFlow || column ≤ lexer.indent then lexer
  else
    { lexer.insert position token with indent := column, outer := lexer.indent :: lexer.outer }

/-- Moves on to the next token: over blanks, comments and line ends, and over a mark of the byte order
where a line begins. A tab where a block might begin is not passed over. The fuel bounds the
lines. -/
def skipToToken : Nat → Lexer → Lexer
  | 0, lexer => lexer
  | fuel + 1, lexer =>
    let cursor := lexer.cursor.skipByteOrderMark.skipWhile fun c =>
      c == ' ' || ((lexer.inFlow || !lexer.allowsKey) && c == '\t')
    let cursor := if cursor.sees '#' then cursor.skipWhile fun _ => true else cursor
    let lexer := { lexer with cursor }
    if cursor.head?.any isBreak then
      skipToToken fuel
        { lexer with cursor := cursor.readBreak.2, allowsKey := lexer.allowsKey || !lexer.inFlow }
    else lexer

/-- Leaves all blocks, as the beginning of a document or a directive does. -/
def leaveBlocks? (lexer : Lexer) : Option Lexer := do
  return (← (lexer.endBlocks (-1)).dropKey?).allowing false

def readDocumentMark? (lexer : Lexer) (token : Token) : Option Lexer := do
  return ((← lexer.leaveBlocks?).skip 3).add token

def readFlowStart? (lexer : Lexer) (token : Token) : Option Lexer := do
  let lexer ← lexer.noteKey?
  let lexer := { lexer with keysAround := lexer.key :: lexer.keysAround, key := none }
  return ((lexer.allowing true).skip 1).add token

def readFlowEnd? (lexer : Lexer) (token : Token) : Option Lexer := do
  let lexer ← lexer.dropKey?
  let lexer := match lexer.keysAround with
    | key :: keysAround => { lexer with key, keysAround }
    | [] => lexer
  return ((lexer.allowing false).skip 1).add token

/-- Reads the comma of a flow collection. -/
def readFlowEntry? (lexer : Lexer) : Option Lexer := do
  return (((← lexer.dropKey?).allowing true).skip 1).add .flowEntry

/-- Opens a block here for a mark of one character, where a key may begin. -/
def openBlockHere? (lexer : Lexer) (token : Token) : Option Lexer :=
  if lexer.inFlow then some lexer
  else if lexer.allowsKey then
    some (lexer.openBlock lexer.cursor.column token lexer.tokens.size)
  else none

/-- Reads the dash of a block sequence. -/
def readBlockEntry? (lexer : Lexer) : Option Lexer := do
  let lexer ← lexer.openBlockHere? .blockSequenceStart
  return (((← lexer.dropKey?).allowing true).skip 1).add .blockEntry

def readKey? (lexer : Lexer) : Option Lexer := do
  let lexer ← lexer.openBlockHere? .blockMappingStart
  return (((← lexer.dropKey?).allowing !lexer.inFlow).skip 1).add .key

/-- Reads the colon of a pair, after a simple key or after a key with a mark. -/
def readValue? (lexer : Lexer) : Option Lexer :=
  match lexer.key with
  | some key =>
    let lexer := lexer.insert key.position .key
    let lexer := lexer.openBlock key.column .blockMappingStart key.position
    some (({ lexer with key := none, allowsKey := false }.skip 1).add .value)
  | none => do
    let lexer ← lexer.openBlockHere? .blockMappingStart
    return ((lexer.allowing !lexer.inFlow).skip 1).add .value

def readKeyed? (lexer : Lexer) (read? : Cursor → Option (Token × Cursor)) : Option Lexer := do
  let lexer := (← lexer.noteKey?).allowing false
  let (token, cursor) ← read? lexer.cursor
  return { lexer with cursor }.add token

def readQuoted? (lexer : Lexer) (quote : Char) (style : ScalarStyle) : Option Lexer :=
  lexer.readKeyed? fun cursor => do
    let (text, cursor) ← readQuoted quote cursor
    return (.scalar style (String.ofList text), cursor)

/-- Reads a plain scalar. A key may follow when a line ended after it. -/
def readPlain? (lexer : Lexer) : Option Lexer := do
  let lexer := (← lexer.noteKey?).allowing false
  let (scalar, cursor) ← readPlain lexer.inFlow (lexer.indent + 1).toNat lexer.cursor
  return { lexer with cursor, allowsKey := scalar.endsLine }.add
    (.scalar .plain (String.ofList scalar.text))

def readBlock? (lexer : Lexer) (style : ScalarStyle) : Option Lexer := do
  let lexer := (← lexer.dropKey?).allowing true
  let (text, cursor) ← readBlock (style = .folded) lexer.indent lexer.cursor
  return { lexer with cursor }.add (.scalar style (String.ofList text))

/-- Whether a plain scalar may begin with a character before another. -/
def beginsPlain (lexer : Lexer) (c : Char) (next : Option Char) : Bool :=
  (!isSpacing c && !"-?:,[]\x7b\x7d#&*!|>'\"%@\x60".toList.contains c) ||
    (c == '-' && !next.any isBlank) || (!lexer.inFlow && (c == '?' || c == ':') && !isGap next)

def readToken? (lexer : Lexer) (c : Char) : Option Lexer :=
  let cursor := lexer.cursor
  let next := cursor.ahead? 1
  if cursor.column = 0 ∧ c = '%' then do
    let lexer ← lexer.leaveBlocks?
    let (token, cursor) ← readDirective? lexer.cursor
    return { lexer with cursor }.add token
  else if cursor.atMark '-' then lexer.readDocumentMark? .documentStart
  else if cursor.atMark '.' then lexer.readDocumentMark? .documentEnd
  else if c = '[' then lexer.readFlowStart? .flowSequenceStart
  else if c = '\x7b' then lexer.readFlowStart? .flowMappingStart
  else if c = ']' then lexer.readFlowEnd? .flowSequenceEnd
  else if c = '\x7d' then lexer.readFlowEnd? .flowMappingEnd
  else if c = ',' then lexer.readFlowEntry?
  else if c = '-' ∧ isGap next then lexer.readBlockEntry?
  else if c = '?' ∧ (lexer.inFlow ∨ isGap next) then lexer.readKey?
  else if c = ':' ∧ (lexer.inFlow ∨ isGap next) then lexer.readValue?
  else if c = '*' then lexer.readKeyed? fun cursor => do
    let (name, cursor) ← readName? cursor
    return (.alias name, cursor)
  else if c = '&' then lexer.readKeyed? fun cursor => do
    let (name, cursor) ← readName? cursor
    return (.anchor name, cursor)
  else if c = '!' then lexer.readKeyed? fun cursor => do
    let (tag, cursor) ← readTag? lexer.inFlow cursor
    return (.tag tag, cursor)
  else if c = '|' ∧ !lexer.inFlow then lexer.readBlock? .literal
  else if c = '>' ∧ !lexer.inFlow then lexer.readBlock? .folded
  else if c = '\'' then lexer.readQuoted? c .singleQuoted
  else if c = '"' then lexer.readQuoted? c .doubleQuoted
  else if lexer.beginsPlain c next then lexer.readPlain?
  else none

/-- Reads all tokens that are left. The fuel bounds their number; each takes a character. -/
def readAll? : Nat → Lexer → Option (List Token)
  | 0, _ => none
  | fuel + 1, lexer => do
    let lexer ← (skipToToken (lexer.cursor.rest.length + 1) lexer).dropStaleKeys?
    let lexer := lexer.endBlocks lexer.cursor.column
    match lexer.cursor.head? with
    | none => return (← lexer.leaveBlocks?).tokens.toList
    | some c => readAll? fuel (← lexer.readToken? c)

end Lexer

/-- The tokens of a document or of several, if its characters are allowed and can be read as
tokens. -/
def Token.ofText? (text : String) : Option (List Token) :=
  let chars := text.toList
  if chars.all isAllowed then (Lexer.start chars).readAll? (chars.length + 1) else none

end ImageAudit.Yaml
