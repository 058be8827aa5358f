import ImageAudit.Sql.Expression
import ImageAudit.Sql.Reader

/-! # Reading expressions and queries

Operators bind by rank. An operand is read first, and then operators of at least a given rank with
what stands to their right. The readers call one another, with fuel that each call takes some of;
between two calls of the same reader a token is taken.
-/

namespace ImageAudit.Sql

namespace Reader

/-! ## Operators -/

/-- The rank of the negation in front of an expression. -/
def notRank : Nat := 3

/-- The rank of tests for equality, patterns and lists. -/
def testRank : Nat := 4

def collateRank : Nat := 10

def signRank : Nat := 11

/-- The operator between two operands that a token is, with its rank. -/
def binaryOperator? (token : Token) : Option (Nat × BinaryOperator) :=
  match token.kind with
  | .mark "=" => some (testRank, .equal)
  | .mark "!=" => some (testRank, .notEqual)
  | .mark "<" => some (5, .less)
  | .mark "<=" => some (5, .lessEqual)
  | .mark ">" => some (5, .greater)
  | .mark ">=" => some (5, .greaterEqual)
  | .mark "&" => some (6, .bitAnd)
  | .mark "|" => some (6, .bitOr)
  | .mark "<<" => some (6, .shiftLeft)
  | .mark ">>" => some (6, .shiftRight)
  | .mark "+" => some (7, .add)
  | .mark "-" => some (7, .subtract)
  | .mark "*" => some (8, .multiply)
  | .mark "/" => some (8, .divide)
  | .mark "%" => some (8, .remainder)
  | .mark "||" => some (9, .concat)
  | .mark "->" => some (9, .extract)
  | .mark "->>" => some (9, .extractText)
  | _ =>
    match token.keyword with
    | "or" => some (1, .or)
    | "and" => some (2, .and)
    | _ => none

def patternKind? : String → Option PatternKind
  | "like" => some .like
  | "glob" => some .glob
  | "regexp" => some .regexp
  | "match" => some .matches
  | _ => none

def timeWords : List String := ["current_date", "current_time", "current_timestamp"]

def queryWords : List String := ["select", "values", "with"]

def direction : Reader Direction := do
  let isDescending ←
    if ← takeKeyword "desc" then pure true
    else do
      discard (takeKeyword "asc")
      pure false
  let nullsFirst? ←
    if ← takeKeyword "nulls" then
      pure (some ((← anyKeyword ["first", "last"]) == "first"))
    else pure none
  return ⟨isDescending, nullsFirst?⟩

def signedNumber : Reader Unit := do
  if !(← takeMark "-") then discard (takeMark "+")
  match (← next).kind with
  | .integer _ | .real _ => return
  | _ => failure

/-- Takes the type that a value is cast to: names, and one or two numbers in parentheses. -/
def typeName : Reader Bytes := do
  let state ← get
  let names := state.tokens.takeWhile fun token => (optionalName? token).isSome
  set { state with tokens := state.tokens.drop names.length }
  let some first := names.head? | return []
  if ← atMark "(" then
    let sizes ← inParentheses (items signedNumber)
    if 2 < sizes.length then failure
  let taken := state.tokens.length - (← get).tokens.length
  let stop := ((state.tokens[taken - 1]?).map (·.stop)).getD first.stop
  return state.source.slice first.start (stop - first.start)

/-- What a join of the given words keeps. -/
def joinKind? (words : List String) : Option JoinKind :=
  let has (word : String) : Bool := words.contains word
  let isOuter := has "left" || has "right" || has "full" || has "outer"
  let isInner := has "inner" || has "cross"
  if words.any (fun word => !Token.joinWords.contains word || word == "indexed") then none
  else if isInner && isOuter then none
  else if has "outer" && !(has "left" || has "right" || has "full") then none
  else
    some ⟨has "natural", has "left" || has "full", has "right" || has "full", has "cross"⟩

/-- Takes what joins a source to those before it, if there is another source. -/
def join? : Reader (Option JoinKind) := do
  if ← takeMark "," then return some .inner
  if ← takeKeyword "join" then return some .inner
  if !(← atAnyKeyword (Token.joinWords.filter (· != "indexed"))) then return none
  let state ← get
  let words := state.tokens.takeWhile (·.keyword != "join")
  set { state with tokens := state.tokens.drop (words.length + 1) }
  if 3 < words.length ∨ state.tokens.length ≤ words.length then failure
  match joinKind? (words.map (·.keyword)) with
  | some join => return some join
  | none => failure

/-- Takes a name that may have that of the file in front. Nothing in other files can be named. -/
def nameInFile : Reader Bytes := do
  let first ← name
  if ← takeMark "." then
    let second ← name
    if isNamed first "main" then return second else failure
  else return first

/-- Takes the name that a source or a result is given, if it is given one. -/
def alias? : Reader (Option Bytes) := do
  if ← takeKeyword "as" then return some (← name) else takeName

/-- Takes which index a table may be read by, if that is said. -/
def indexHint : Reader IndexHint := do
  if ← takeKeyword "indexed" then
    keyword "by"
    return .named (← name)
  else if ← takeKeyword "not" then
    keyword "indexed"
    return .none
  else return .any

/-- Takes the set operator in front of another selection, if there is one. -/
def setOperator? : Reader (Option SetOperator) := do
  if ← takeKeyword "union" then
    return some (if ← takeKeyword "all" then .unionAll else .union)
  else if ← takeKeyword "except" then return some .except
  else if ← takeKeyword "intersect" then return some .intersect
  else return none

inductive FrameEnd where
  | unbounded
  | preceding
  | current
  | following
  deriving DecidableEq

/-- Whether a frame may go from one end to the other. -/
def isFrame (first last : FrameEnd) : Bool :=
  !(first = .current && last = .preceding ||
    first = .following && (last = .preceding || last = .current))

def frameExclusion : Reader Unit := do
  if ← takeKeyword "exclude" then
    match ← anyKeyword ["no", "current", "group", "ties"] with
    | "no" => keyword "others"
    | "current" => keyword "row"
    | _ => return

mutual

/-- Takes an expression of operators of at least a rank. -/
def expressionFrom : Nat → Nat → Reader Expression
  | 0, _ => failure
  | fuel + 1, rank => do operators fuel rank false (← operand fuel)

def expression : Nat → Reader Expression
  | 0 => failure
  | fuel + 1 => expressionFrom fuel 0

/-- Takes an expression in which the first `AND` outside of other operators ends it. -/
def lowBound : Nat → Reader Expression
  | 0 => failure
  | fuel + 1 => do operators fuel 0 true (← operand fuel)

/-- Takes the operators that follow an operand, of at least a rank, with what is to their right. -/
def operators : Nat → Nat → Bool → Expression → Reader Expression
  | 0, _, _, _ => failure
  | fuel + 1, rank, stopsAtAnd, left => do
    let some token ← peek? | return left
    if token.keyword == "not" then
      if notRank < rank then return left
      discard next
      if ← takeKeyword "null" then
        operators fuel rank stopsAtAnd (.unary .notNull left)
      else operators fuel rank stopsAtAnd (← test fuel true left)
    else if token.keyword == "collate" then
      if collateRank < rank then return left
      discard next
      operators fuel rank stopsAtAnd (.collate left (← plainName))
    else if ["isnull", "notnull", "is", "between", "in"].contains token.keyword ||
        (patternKind? token.keyword).isSome then
      if testRank < rank then return left
      operators fuel rank stopsAtAnd (← test fuel false left)
    else
      match binaryOperator? token with
      | some (own, operator) =>
        if own < rank || stopsAtAnd && operator = .and then return left
        discard next
        let right ← expressionFrom fuel (own + 1)
        operators fuel rank stopsAtAnd (.binary operator left right)
      | none => return left

/-- Takes a test that is written in words, for what is to its left. -/
def test : Nat → Bool → Expression → Reader Expression
  | 0, _, _ => failure
  | fuel + 1, isNegated, left => do
    let token ← next
    match token.keyword with
    | "between" =>
      let low ← lowBound fuel
      keyword "and"
      return .between isNegated left low (← expressionFrom fuel (testRank + 1))
    | "in" => membership fuel isNegated left
    | word =>
      match patternKind? word with
      | some kind =>
        let pattern ← expressionFrom fuel (testRank + 1)
        let escape ←
          if ← takeKeyword "escape" then pure (some (← expressionFrom fuel (testRank + 1)))
          else pure none
        return .pattern kind isNegated left pattern escape
      | none =>
        if isNegated then failure
        match word with
        | "isnull" => return .unary .isNull left
        | "notnull" => return .unary .notNull left
        | _ =>
          let isNot ← takeKeyword "not"
          let isDistinct ← takeKeyword "distinct"
          if isDistinct then keyword "from"
          let right ← expressionFrom fuel (testRank + 1)
          return .binary (if isNot == isDistinct then .isSame else .isNotSame) left right

/-- Takes the list, query or table in which something is looked for. Nothing is in an empty list,
whatever is looked for. -/
def membership : Nat → Bool → Expression → Reader Expression
  | 0, _, _ => failure
  | fuel + 1, isNegated, left => do
    if ← takeMark "(" then
      if ← takeMark ")" then return .literal (.integer [if isNegated then 0x31 else 0x30])
      if ← atAnyKeyword queryWords then
        let query ← query fuel
        mark ")"
        return .inQuery isNegated left query
      let items ← items (expression fuel)
      mark ")"
      return .inList isNegated left items
    else
      return .inTable isNegated left (.mk (← namedSource fuel) none .inner none [])

/-- Takes an operand: a literal, a name, a call, or something with a sign or in parentheses. -/
def operand : Nat → Reader Expression
  | 0 => failure
  | fuel + 1 => do
    let token ← next
    let isBeforeDot ← atMark "."
    match token.kind with
    | .integer digits => return .literal (.integer digits)
    | .real digits => return .literal (.real digits)
    | .blob content => return .literal (.blob content)
    | .variable => return .variable
    | .mark "-" => return .unary .minus (← expressionFrom fuel signRank)
    | .mark "+" => return .unary .plus (← expressionFrom fuel signRank)
    | .mark "~" => return .unary .complement (← expressionFrom fuel signRank)
    | .mark "(" =>
      if ← atAnyKeyword queryWords then
        let query ← query fuel
        mark ")"
        return .scalar query
      let items ← items (expression fuel)
      mark ")"
      match items with
      | [item] => return item
      | _ => return .vector items
    | .text content => if isBeforeDot then qualified content else return .literal (.text content)
    | .mark _ | .junk => failure
    | .quoted name isDouble =>
      if isBeforeDot then qualified name
      else if ← atMark "(" then call fuel name
      else return .name name isDouble
    | .word text =>
      match token.keyword with
      | "not" => return .unary .not (← expressionFrom fuel notRank)
      | "null" => return .literal .null
      | "exists" => return .exists (← inParentheses (query fuel))
      | "raise" => inParentheses raised
      | "cast" =>
        inParentheses do
          let operand ← expression fuel
          keyword "as"
          return .cast operand (← typeName)
      | "case" => choice fuel
      | word =>
        if timeWords.contains word then return .literal .currentTime
        if (identifier? token).isNone then failure
        if isBeforeDot then qualified text
        else if ← atMark "(" then call fuel text
        else return .name text false

/-- Takes what follows a name in front of a dot. -/
def qualified (first : Bytes) : Reader Expression := do
  mark "."
  let second ← name
  if ← takeMark "." then return .qualified (some first) second (← name)
  else return .qualified none first second

def raised : Reader Expression := do
  match ← anyKeyword ["ignore", "rollback", "abort", "fail"] with
  | "ignore" => return .raise
  | _ =>
    mark ","
    discard name
    return .raise

def choice : Nat → Reader Expression
  | 0 => failure
  | fuel + 1 => do
    let subject ← if ← atKeyword "when" then pure none else pure (some (← expression fuel))
    let first ← branch fuel
    let rest ← branches fuel
    let otherwise ← if ← takeKeyword "else" then pure (some (← expression fuel)) else pure none
    keyword "end"
    return .choice subject (first :: rest) otherwise

def branch : Nat → Reader (Expression × Expression)
  | 0 => failure
  | fuel + 1 => do
    keyword "when"
    let condition ← expression fuel
    keyword "then"
    return (condition, ← expression fuel)

def branches : Nat → Reader (List (Expression × Expression))
  | 0 => failure
  | fuel + 1 => do
    if !(← atKeyword "when") then return []
    let first ← branch fuel
    return first :: (← branches fuel)

def call : Nat → Bytes → Reader Expression
  | 0, _ => failure
  | fuel + 1, function => do
    mark "("
    let isStar ← takeMark "*"
    let isDistinct ←
      if isStar then pure false
      else if ← takeKeyword "distinct" then pure true
      else do
        discard (takeKeyword "all")
        pure false
    let arguments ←
      if isStar || (← atMark ")") || (← atKeyword "order") then pure []
      else items (expression fuel)
    let order ← if isStar then pure [] else orderBy fuel
    mark ")"
    let filter ←
      if ← takeKeyword "filter" then
        inParentheses do
          keyword "where"
          return some (← expression fuel)
      else pure none
    let window ←
      if ← takeKeyword "over" then
        if ← atMark "(" then pure (some (← inParentheses (window fuel)))
        else do
          discard name
          pure (some (Window.mk []))
      else pure none
    return .call function (.mk isDistinct isStar arguments order filter window)

/-- Takes the order of rows, if one is given. -/
def orderBy : Nat → Reader (List (Expression × Direction))
  | 0 => failure
  | fuel + 1 => do
    if ← takeKeyword "order" then
      keyword "by"
      items (ordered fuel)
    else return []

def ordered : Nat → Reader (Expression × Direction)
  | 0 => failure
  | fuel + 1 => do
    let term ← expression fuel
    return (term, ← direction)

/-- Takes the rows around a row. -/
def window : Nat → Reader Window
  | 0 => failure
  | fuel + 1 => do
    if !(← atAnyKeyword ["partition", "range", "rows", "groups"]) then discard takeName
    let parts ←
      if ← takeKeyword "partition" then
        keyword "by"
        items (expression fuel)
      else pure []
    let order ← orderBy fuel
    let bounds ← frame fuel
    return .mk (parts ++ order.map (·.1) ++ bounds)

/-- Takes the frame of a window, if one is given. -/
def frame : Nat → Reader (List Expression)
  | 0 => failure
  | fuel + 1 => do
    if !(← atAnyKeyword ["range", "rows", "groups"]) then return []
    discard next
    let isBetween ← takeKeyword "between"
    let (first, firstBound) ← frameEnd fuel true
    let (last, lastBound) ←
      if isBetween then
        keyword "and"
        frameEnd fuel false
      else pure (.current, [])
    if !isFrame first last then failure
    frameExclusion
    return firstBound ++ lastBound

def frameEnd : Nat → Bool → Reader (FrameEnd × List Expression)
  | 0, _ => failure
  | fuel + 1, isFirst => do
    if ← takeKeyword "unbounded" then
      keyword (if isFirst then "preceding" else "following")
      return (.unbounded, [])
    else if ← takeKeyword "current" then
      keyword "row"
      return (.current, [])
    else
      let bound ← expression fuel
      match ← anyKeyword ["preceding", "following"] with
      | "preceding" => return (.preceding, [bound])
      | _ => return (.following, [bound])

def query : Nat → Reader Query
  | 0 => failure
  | fuel + 1 => do
    if ← takeKeyword "with" then
      let isRecursive ← takeKeyword "recursive"
      let tables ← items (commonTable fuel)
      let names := tables.map fun | .mk name _ _ => name.map Byte.lower
      if !decide names.Nodup then failure
      selections fuel isRecursive tables
    else selections fuel false []

def commonTable : Nat → Reader CommonTable
  | 0 => failure
  | fuel + 1 => do
    let name ← name
    let columns ← listedColumns
    keyword "as"
    if ← takeKeyword "not" then keyword "materialized"
    else discard (takeKeyword "materialized")
    return .mk name columns (← inParentheses (query fuel))

/-- Takes selections with set operators between them, and the order and limit of the last one. -/
def selections : Nat → Bool → List CommonTable → Reader Query
  | 0, _, _ => failure
  | fuel + 1, isRecursive, tables => do
    let first ← selection fuel
    let rest ← furtherSelections fuel
    let isSelect :=
      match (rest.getLast?.map (·.2)).getD first with
      | .select .. => true
      | .values _ => false
    if !isSelect then return .mk isRecursive tables first rest [] none none
    let order ← orderBy fuel
    let (limit, offset) ← limits fuel
    return .mk isRecursive tables first rest order limit offset

def furtherSelections : Nat → Reader (List (SetOperator × Selection))
  | 0 => failure
  | fuel + 1 => do
    match ← setOperator? with
    | none => return []
    | some operator =>
      let selection ← selection fuel
      return (operator, selection) :: (← furtherSelections fuel)

/-- Takes a limit and an offset, if they are given. -/
def limits : Nat → Reader (Option Expression × Option Expression)
  | 0 => failure
  | fuel + 1 => do
    if !(← takeKeyword "limit") then return (none, none)
    let first ← expression fuel
    if ← takeKeyword "offset" then return (some first, some (← expression fuel))
    else if ← takeMark "," then return (some (← expression fuel), some first)
    else return (some first, none)

def selection : Nat → Reader Selection
  | 0 => failure
  | fuel + 1 => do
    if ← takeKeyword "values" then
      return .values (← items (inParentheses (items (expression fuel))))
    keyword "select"
    let isDistinct ← takeKeyword "distinct"
    if !isDistinct then discard (takeKeyword "all")
    let results ← items (resultColumn fuel)
    let sources ← if ← takeKeyword "from" then sources fuel true else pure []
    let condition ← optional fuel "where"
    let group ←
      if ← takeKeyword "group" then
        keyword "by"
        items (expression fuel)
      else pure []
    let having ← optional fuel "having"
    let windows ← if ← takeKeyword "window" then items (namedWindow fuel) else pure []
    return .select isDistinct results sources condition group having windows

/-- Takes an expression behind a keyword, if it is there. -/
def optional : Nat → String → Reader (Option Expression)
  | 0, _ => failure
  | fuel + 1, word => do
    if ← takeKeyword word then return some (← expression fuel) else return none

def namedWindow : Nat → Reader Window
  | 0 => failure
  | fuel + 1 => do
    discard name
    keyword "as"
    inParentheses (window fuel)

def resultColumn : Nat → Reader ResultColumn
  | 0 => failure
  | fuel + 1 => do
    if ← takeMark "*" then return .all
    match (← get).tokens with
    | first :: dot :: star :: _ =>
      if let some table := name? first then
        if dot.isMark "." && star.isMark "*" then
          discard next
          discard next
          discard next
          return .allOf table
    | _ => pure ()
    let value ← expression fuel
    return .expression value (← alias?)

/-- Takes sources. The first has nothing that it could be joined to. -/
def sources : Nat → Bool → Reader (List Source)
  | 0, _ => failure
  | fuel + 1, isFirst => do
    let some join ← if isFirst then pure (some JoinKind.inner) else join? | return []
    let item ← sourceItem fuel
    let name ← alias?
    let item ← match item with
      | .table table _ => pure (SourceItem.table table (← indexHint))
      | item => pure item
    let condition ← optional fuel "on"
    let shared ←
      if condition.isNone && (← takeKeyword "using") then inParentheses (items Reader.name)
      else pure []
    if isFirst && (condition.isSome || shared != []) then failure
    return .mk item name join condition shared :: (← sources fuel false)

/-- Takes what rows come from. -/
def sourceItem : Nat → Reader SourceItem
  | 0 => failure
  | fuel + 1 => do
    if ← takeMark "(" then
      if ← atAnyKeyword queryWords then
        let query ← query fuel
        mark ")"
        return .query query
      let group ← sources fuel true
      mark ")"
      return .group group
    namedSource fuel

/-- Takes the name of a table or of a function that yields rows. -/
def namedSource : Nat → Reader SourceItem
  | 0 => failure
  | fuel + 1 => do
    let name ← nameInFile
    if ← takeMark "(" then
      let arguments ← if ← atMark ")" then pure [] else items (expression fuel)
      mark ")"
      return .function name arguments
    return .table name .any

end

/-- The fuel that a statement of some tokens takes. -/
def fuelFor (tokens : List Token) : Nat := 16 * tokens.length + 64

def wholeExpression : Reader Expression := do expression (fuelFor (← get).tokens)

def wholeQuery : Reader Query := do query (fuelFor (← get).tokens)

end Reader

end ImageAudit.Sql
