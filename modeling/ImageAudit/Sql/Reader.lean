import ImageAudit.Sql.Token

/-! # Reading statements

A reader takes tokens from the front of a statement or fails. Names are taken by where they stand:
a word that begins another part of the statement is no name there. Lists are read with fuel, of
which each item takes some and a token.
-/

namespace ImageAudit.Sql

structure ReaderState where
  /-- The text of the whole statement. -/
  source : Bytes
  tokens : List Token

abbrev Reader := StateT ReaderState Option

namespace Reader

/-- The next token, which stays. -/
def peek? : Reader (Option Token) := return (← get).tokens.head?

def next : Reader Token := do
  let state ← get
  match state.tokens with
  | [] => failure
  | token :: rest =>
    set { state with tokens := rest }
    return token

def atKeyword (keyword : String) : Reader Bool :=
  return (← peek?).any fun token => token.keyword == keyword

/-- Whether the next token is one of some keywords. -/
def atAnyKeyword (keywords : List String) : Reader Bool :=
  return (← peek?).any fun token => keywords.contains token.keyword

def atMark (mark : String) : Reader Bool := return (← peek?).any (·.isMark mark)

/-- Takes the next token if it is a keyword. -/
def takeKeyword (keyword : String) : Reader Bool := do
  if ← atKeyword keyword then
    discard next
    return true
  else return false

/-- Takes the next token if it is a mark. -/
def takeMark (mark : String) : Reader Bool := do
  if ← atMark mark then
    discard next
    return true
  else return false

def keyword (keyword : String) : Reader Unit := do
  if !(← takeKeyword keyword) then failure

def keywords (keywords : List String) : Reader Unit := keywords.forM keyword

def anyKeyword (keywords : List String) : Reader String := do
  let token ← next
  if keywords.contains token.keyword then return token.keyword else failure

def mark (mark : String) : Reader Unit := do
  if !(← takeMark mark) then failure

/-! ## Names -/

/-- The name that a token is where a column or a function is named. -/
def identifier? (token : Token) : Option Bytes :=
  match token.kind with
  | .word text =>
    if token.isPlainName || Token.joinWords.contains token.keyword then some text else none
  | .quoted name _ => some name
  | _ => none

/-- The name that a token is where nothing but a name can stand. -/
def name? (token : Token) : Option Bytes :=
  match token.kind with
  | .text content => some content
  | _ => identifier? token

/-- The name that a token is where it may be left out. -/
def optionalName? (token : Token) : Option Bytes :=
  match token.kind with
  | .text content => some content
  | .quoted name _ => some name
  | .word text => if token.isPlainName then some text else none
  | _ => none

def name : Reader Bytes := do
  match name? (← next) with
  | some name => return name
  | none => failure

def takeName : Reader (Option Bytes) := do
  match (← peek?).bind optionalName? with
  | some name =>
    discard next
    return some name
  | none => return none

/-- Takes a name that stands where it may be left out. -/
def plainName : Reader Bytes := do
  match ← takeName with
  | some name => return name
  | none => failure

/-! ## Lists -/

/-- Takes items between commas. The fuel bounds their number. -/
def itemsOf (item : Reader α) : Nat → Reader (List α)
  | 0 => failure
  | fuel + 1 => do
    let first ← item
    if ← takeMark "," then return first :: (← itemsOf item fuel) else return [first]

/-- Takes items between commas, one at least. -/
def items (item : Reader α) : Reader (List α) := do
  itemsOf item ((← get).tokens.length + 1)

def inParentheses (content : Reader α) : Reader α := do
  mark "("
  let content ← content
  mark ")"
  return content

/-- Takes a name of a column where a list of columns stands; an order and a collation have no
meaning there. -/
def listedColumn : Reader Bytes := do
  let column ← name
  if ← takeKeyword "collate" then discard plainName
  if ← atAnyKeyword ["asc", "desc"] then discard next
  return column

/-- Takes names of columns in parentheses, if there are any. -/
def listedColumns : Reader (List Bytes) := do
  if ← atMark "(" then inParentheses (items listedColumn) else return []

end Reader

end ImageAudit.Sql
