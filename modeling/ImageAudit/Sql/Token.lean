import ImageAudit.Bytes
import ImageAudit.Text
import ImageAudit.Text.Hex

/-! # Tokens of SQL

A statement is read as a list of tokens: words, names in quotes, literals and marks. Blanks and
comments stand between them. A word is a keyword or a name by where it stands; the three words that
begin the parts of a window are keywords only before and behind certain tokens. Text that is no
token makes a token of its own, which no rule accepts, and ends the list.
-/

namespace ImageAudit.Sql

inductive TokenKind where
  | word (text : Bytes)
  /-- A name in quotes or brackets. Double quotes may stand around a text, too. -/
  | quoted (name : Bytes) (isDouble : Bool)
  | text (content : Bytes)
  | blob (content : Bytes)
  | integer (digits : Bytes)
  | real (digits : Bytes)
  | variable
  | mark (text : String)
  | junk
  deriving DecidableEq, Repr

/-- A token and the part of the statement that it takes. -/
structure Token where
  kind : TokenKind
  start : Nat
  stop : Nat
  /-- The word in lower case, where it can be a keyword; else empty. -/
  keyword : String
  deriving DecidableEq, Repr

/-! ## Bytes -/

namespace Byte

def isDigit (byte : UInt8) : Bool := 0x30 ≤ byte && byte ≤ 0x39

def isLetter (byte : UInt8) : Bool :=
  (0x41 ≤ byte && byte ≤ 0x5A) || (0x61 ≤ byte && byte ≤ 0x7A)

def isHexDigit (byte : UInt8) : Bool :=
  isDigit byte || (0x41 ≤ byte && byte ≤ 0x46) || (0x61 ≤ byte && byte ≤ 0x66)

def isWordByte (byte : UInt8) : Bool :=
  isLetter byte || isDigit byte || byte == 0x5F || byte == 0x24 || 0x80 ≤ byte

def isSpace (byte : UInt8) : Bool := byte == 0x20 || (0x09 ≤ byte && byte ≤ 0x0D)

/-- The letter in lower case when it is an ASCII letter. -/
def lower (byte : UInt8) : UInt8 := if 0x41 ≤ byte ∧ byte ≤ 0x5A then byte + 0x20 else byte

/-- The letter in upper case when it is an ASCII letter. -/
def upper (byte : UInt8) : UInt8 := if 0x61 ≤ byte ∧ byte ≤ 0x7A then byte - 0x20 else byte

end Byte

/-- Whether two names differ at most in the case of ASCII letters. -/
def sameName (a b : Bytes) : Bool := a.map Byte.lower == b.map Byte.lower

/-- Whether a name is the given one, but for the case of ASCII letters. -/
def isNamed (name : Bytes) (text : String) : Bool := sameName name (Bytes.ofText text)

/-! ## Reading tokens -/

namespace Token

/-- What begins a text: its length, and the token that it is; none for blanks and comments. -/
abbrev Lexeme := Nat × Option TokenKind

/-- The length of the beginning of a text whose bytes are all of a class. -/
def run (inClass : UInt8 → Bool) (bytes : Bytes) : Nat := (bytes.takeWhile inClass).length

/-- What stands in quotes up to the closing one, and the length of that with it. A doubled quote
stands for one. -/
def readQuoted (quote : UInt8) : Bytes → Option (Bytes × Nat)
  | [] => none
  | [a] => if a = quote then some ([], 1) else none
  | a :: b :: rest =>
    if a = quote then
      if b = quote then (readQuoted quote rest).map fun (text, length) => (a :: text, length + 2)
      else some ([], 1)
    else (readQuoted quote (b :: rest)).map fun (text, length) => (a :: text, length + 1)

def commentLength : Bytes → Nat
  | 0x2A :: 0x2F :: _ => 2
  | _ :: rest => commentLength rest + 1
  | [] => 0

/-- The length of the exponent that a text begins with. -/
def exponentLength : Bytes → Nat
  | e :: a :: rest =>
    if Byte.lower e ≠ 0x65 then 0
    else if Byte.isDigit a then 2 + run Byte.isDigit rest
    else if (a = 0x2B ∨ a = 0x2D) ∧ (rest.head?.any Byte.isDigit) then 2 + run Byte.isDigit rest
    else 0
  | _ => 0

/-- A number in decimal digits, with or without a fraction and an exponent. No word may follow at
once. -/
def readDecimal (bytes : Bytes) : Lexeme :=
  let whole := run Byte.isDigit bytes
  let afterWhole := bytes.drop whole
  let fraction :=
    if afterWhole.head? = some 0x2E then 1 + run Byte.isDigit (afterWhole.drop 1) else 0
  let exponent := exponentLength (afterWhole.drop fraction)
  let length := whole + fraction + exponent
  let after := run Byte.isWordByte (bytes.drop length)
  let digits := bytes.take length
  (length + after, some <|
    if after ≠ 0 then .junk else if fraction + exponent = 0 then .integer digits else .real digits)

def readNumber (bytes : Bytes) : Lexeme :=
  match bytes with
  | 0x30 :: x :: digit :: rest =>
    if Byte.lower x = 0x78 ∧ Byte.isHexDigit digit then
      let length := 3 + run Byte.isHexDigit rest
      (length, some (.integer (bytes.take length)))
    else readDecimal bytes
  | _ => readDecimal bytes

/-- The end of a variable that goes on in parentheses; none if they are not closed. -/
def parenthesized? (bytes : Bytes) : Option Nat :=
  let length := run (fun byte => !Byte.isSpace byte && byte != 0x29) bytes
  if bytes[length]? = some 0x29 then some (length + 1) else none

/-- The length of the name of a variable, and whether it is one. The fuel bounds its bytes; `named`
tells whether a byte of a word was there. -/
def variableLength : Nat → Bool → Bytes → Nat × Bool
  | 0, named, _ => (0, named)
  | _, named, [] => (0, named)
  | fuel + 1, named, byte :: rest =>
    if Byte.isWordByte byte then
      let (length, isVariable) := variableLength fuel true rest
      (length + 1, isVariable)
    else if byte = 0x28 ∧ named then
      match parenthesized? rest with
      | some length => (length + 1, true)
      | none => (rest.length + 1, false)
    else if byte = 0x3A ∧ rest.head? = some 0x3A then
      let (length, isVariable) := variableLength fuel named (rest.drop 1)
      (length + 2, isVariable)
    else (0, named)

/-- A mark: the longest that the text begins with. -/
def readMark : Bytes → Lexeme
  | 0x3D :: 0x3D :: _ => (2, some (.mark "="))
  | 0x3D :: _ => (1, some (.mark "="))
  | 0x3C :: 0x3D :: _ => (2, some (.mark "<="))
  | 0x3C :: 0x3E :: _ => (2, some (.mark "!="))
  | 0x3C :: 0x3C :: _ => (2, some (.mark "<<"))
  | 0x3C :: _ => (1, some (.mark "<"))
  | 0x3E :: 0x3D :: _ => (2, some (.mark ">="))
  | 0x3E :: 0x3E :: _ => (2, some (.mark ">>"))
  | 0x3E :: _ => (1, some (.mark ">"))
  | 0x21 :: 0x3D :: _ => (2, some (.mark "!="))
  | 0x7C :: 0x7C :: _ => (2, some (.mark "||"))
  | 0x7C :: _ => (1, some (.mark "|"))
  | 0x2D :: 0x3E :: 0x3E :: _ => (3, some (.mark "->>"))
  | 0x2D :: 0x3E :: _ => (2, some (.mark "->"))
  | 0x2D :: _ => (1, some (.mark "-"))
  | byte :: _ =>
    let char := Char.ofNat byte.toNat
    (1, some (if "();+*/%,&~.".toList.contains char then .mark (String.singleton char) else .junk))
  | [] => (0, none)

def readText (quote : UInt8) (rest : Bytes) : Lexeme :=
  match readQuoted quote rest with
  | some (text, length) =>
    (length + 1, some (if quote = 0x27 then .text text else .quoted text (quote = 0x22)))
  | none => (rest.length + 1, some .junk)

def readBlob (rest : Bytes) : Lexeme :=
  let digits := rest.takeWhile Byte.isHexDigit
  let text := String.ofList (digits.map fun digit => Char.ofNat digit.toNat)
  match rest[digits.length]?, Hex.decode? text with
  | some 0x27, some content => (digits.length + 3, some (.blob content))
  | _, _ => (rest.length + 2, some .junk)

def read (bytes : Bytes) : Lexeme :=
  match bytes with
  | [] => (0, none)
  | byte :: rest =>
    if byte = 0x2D ∧ rest.head? = some 0x2D then (run (· != 0x0A) bytes, none)
    else if byte = 0x2F ∧ rest.head? = some 0x2A ∧ rest.length ≠ 1 then
      (2 + commentLength (rest.drop 1), none)
    else if Byte.isSpace byte ∧ byte ≠ 0x0B then (run Byte.isSpace bytes, none)
    else if [0xEF, 0xBB, 0xBF].isPrefixOf bytes then (3, none)
    else if byte = 0x27 ∨ byte = 0x22 ∨ byte = 0x60 then readText byte rest
    else if byte = 0x5B then
      let length := run (· != 0x5D) rest
      (length + 2, some (if length = rest.length then .junk else .quoted (rest.take length) false))
    else if Byte.lower byte = 0x78 ∧ rest.head? = some 0x27 then readBlob (rest.drop 1)
    else if Byte.isDigit byte then readNumber bytes
    else if byte = 0x2E ∧ rest.head?.any Byte.isDigit then readNumber bytes
    else if byte = 0x3F then (1 + run Byte.isDigit rest, some .variable)
    else if byte = 0x23 ∧ rest.head?.any Byte.isDigit then (1, some .junk)
    else if byte = 0x24 ∨ byte = 0x40 ∨ byte = 0x3A ∨ byte = 0x23 then
      let (length, isVariable) := variableLength rest.length false rest
      (length + 1, some (if isVariable then .variable else .junk))
    else if Byte.isWordByte byte then
      let length := run Byte.isWordByte bytes
      (length, some (.word (bytes.take length)))
    else readMark bytes

/-- The word in lower case, if it can be a keyword. -/
def keywordOf : TokenKind → String
  | .word text =>
    if text.all fun byte => Byte.isLetter byte || byte == 0x5F then
      String.ofList (text.map fun byte => Char.ofNat (Byte.lower byte).toNat)
    else ""
  | _ => ""

/-- The tokens of a text from an offset on. The fuel bounds their number. -/
def readFrom : Nat → Nat → Bytes → List Token
  | 0, _, _ => []
  | _, _, [] => []
  | fuel + 1, start, bytes =>
    let (length, kind?) := read bytes
    let rest := readFrom fuel (start + max length 1) (bytes.drop (max length 1))
    match kind? with
    | none => rest
    | some .junk => [⟨.junk, start, start + length, ""⟩]
    | some kind => ⟨kind, start, start + length, keywordOf kind⟩ :: rest

/-! ## Keywords -/

def reserved : List String :=
  ["add", "all", "alter", "and", "as", "autoincrement", "between", "case", "check", "collate",
    "commit", "constraint", "create", "default", "deferrable", "delete", "distinct", "drop", "else",
    "escape", "except", "exists", "filter", "foreign", "from", "group", "having", "in", "index",
    "insert", "intersect", "into", "is", "isnull", "join", "limit", "not", "nothing", "notnull",
    "null", "on", "or", "order", "over", "primary", "references", "returning", "select", "set",
    "table", "then", "to", "transaction", "union", "unique", "update", "using", "values", "when",
    "where", "window"]

/-- Words that are names only where nothing else could stand. -/
def joinWords : List String :=
  ["cross", "full", "indexed", "inner", "left", "natural", "outer", "right"]

/-- Whether the token can be a name anywhere. -/
def isPlainName (token : Token) : Bool :=
  match token.kind with
  | .word _ => !reserved.contains token.keyword && !joinWords.contains token.keyword
  | .quoted .. => true
  | _ => false

/-- Whether the token can be taken for a name by the words that begin parts of windows. -/
def looksLikeName (token : Token) : Bool :=
  token.isPlainName || token.kind matches .text _ ||
    (joinWords.contains token.keyword && token.keyword != "indexed") ||
    token.keyword == "window" || token.keyword == "over"

def isMark (token : Token) (text : String) : Bool := token.kind == .mark text

/-- Whether a word that can begin a part of a window does so, given the token before it and those
after it. -/
def beginsWindow (before : Option Token) (token : Token) (after : List Token) : Bool :=
  let closed := before.any (·.isMark ")")
  match token.keyword with
  | "window" =>
    match after with
    | name :: next :: _ => name.looksLikeName && next.keyword == "as"
    | _ => false
  | "over" => closed && after.head?.any fun next => next.isMark "(" || next.looksLikeName
  | "filter" => closed && after.head?.any (·.isMark "(")
  | _ => true

/-- Makes names of the words that do not begin a part of a window. -/
def settleWindows : Option Token → List Token → List Token
  | _, [] => []
  | before, token :: after =>
    let token := if beginsWindow before token after then token else { token with keyword := "" }
    token :: settleWindows (some token) after

/-- The tokens of a statement, which ends at a zero byte. -/
def ofText (text : Bytes) : List Token :=
  let text := text.untilZero
  settleWindows none (readFrom text.length 0 text)

end Token

end ImageAudit.Sql
