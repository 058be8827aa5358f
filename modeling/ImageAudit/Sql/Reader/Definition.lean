import ImageAudit.Sql.Definition
import ImageAudit.Sql.Reader.Expression

/-! # Reading definitions

A statement that creates something is read up to its end or up to a semicolon, and what follows that
does not matter. The steps of a trigger only have to be well formed.
-/

namespace ImageAudit.Sql

namespace Reader

/-- Repeats a step until it takes nothing. The fuel bounds the repetitions. -/
def manyOf (step : Reader (Option α)) : Nat → Reader (List α)
  | 0 => failure
  | fuel + 1 => do
    match ← step with
    | some item => return item :: (← manyOf step fuel)
    | none => return []

/-- Repeats a step until it takes nothing; else it takes a token at least. -/
def many (step : Reader (Option α)) : Reader (List α) := do
  manyOf step ((← get).tokens.length + 1)

/-! ## Rules for columns -/

def conflictAction : Reader ConflictAction := do
  match ← anyKeyword ["rollback", "abort", "fail", "ignore", "replace"] with
  | "rollback" => return .rollback
  | "abort" => return .abort
  | "fail" => return .fail
  | "ignore" => return .ignore
  | _ => return .replace

/-- Takes what is done in a conflict, if that is said. -/
def onConflict : Reader (Option ConflictAction) := do
  match (← get).tokens with
  | on :: conflict :: _ =>
    if on.keyword == "on" && conflict.keyword == "conflict" then
      keywords ["on", "conflict"]
      return some (← conflictAction)
    else return none
  | _ => return none

/-- Takes a value that is written out and may have a sign. -/
def defaultTerm (takesWord : Bool) : Reader Expression := do
  let token ← next
  match token.kind with
  | .integer digits => return .literal (.integer digits)
  | .real digits => return .literal (.real digits)
  | .blob content => return .literal (.blob content)
  | .text content => return .literal (.text content)
  | .quoted name _ => if takesWord then return .literal (.text name) else failure
  | .word text =>
    if token.keyword == "null" then return .literal .null
    else if timeWords.contains token.keyword then return .literal .currentTime
    else if takesWord && (token.isPlainName || token.keyword == "indexed") then
      return if isNamed text "true" || isNamed text "false" then .name text false
        else .literal (.text text)
    else failure
  | _ => failure

/-- Takes the value that a column has where none is given. -/
def defaultValue : Reader Expression := do
  if ← takeMark "(" then
    let value ← wholeExpression
    mark ")"
    return value
  else if ← takeMark "+" then defaultTerm false
  else if ← takeMark "-" then return .unary .minus (← defaultTerm false)
  else defaultTerm true

/-- Takes what follows the name of a table that is referred to. -/
def reference : Reader (Option Unit) := do
  if ← takeKeyword "match" then
    discard name
    return some ()
  match (← get).tokens with
  | on :: change :: _ =>
    if on.keyword == "on" && ["insert", "delete", "update"].contains change.keyword then
      discard next
      discard next
      match ← anyKeyword ["set", "cascade", "restrict", "no"] with
      | "set" => discard (anyKeyword ["null", "default"])
      | "no" => keyword "action"
      | _ => pure ()
      return some ()
    else return none
  | _ => return none

/-- Takes when a reference is checked, behind its keyword. -/
def deferral : Reader Unit := do
  if ← takeKeyword "initially" then discard (anyKeyword ["deferred", "immediate"])

/-- Takes a table that is referred to; yields its columns. -/
def referred : Reader (List Bytes) := do
  discard name
  let columns ← listedColumns
  discard (many reference)
  return columns

/-- Takes a computed value and how it is stored. -/
def generatedValue : Reader ColumnRule := do
  let value ← inParentheses wholeExpression
  match ← peek? with
  | some token =>
    if token.kind matches .word _ && (token.isPlainName || token.keyword == "indexed") then
      discard next
      match token.kind with
      | .word storage => return .generated value (some storage)
      | _ => failure
    else return .generated value none
  | none => return .generated value none

/-- Takes a rule for a column, if there is another one. -/
def columnRule : Reader (Option ColumnRule) := do
  let some token ← peek? | return none
  match token.keyword with
  | "constraint" =>
    discard next
    discard name
    return some .other
  | "default" =>
    discard next
    return some (.default (← defaultValue))
  | "null" =>
    discard next
    discard onConflict
    return some .other
  | "not" =>
    discard next
    match ← anyKeyword ["null", "deferrable"] with
    | "null" =>
      discard onConflict
      return some .notNull
    | _ =>
      deferral
      return some .other
  | "primary" =>
    keywords ["primary", "key"]
    let isDescending ←
      if ← takeKeyword "desc" then pure true
      else do
        discard (takeKeyword "asc")
        pure false
    let action ← onConflict
    return some (.primaryKey isDescending action (← takeKeyword "autoincrement"))
  | "unique" =>
    discard next
    return some (.unique (← onConflict))
  | "check" =>
    discard next
    return some (.check (← inParentheses wholeExpression))
  | "references" =>
    discard next
    return some (.references (← referred))
  | "deferrable" =>
    discard next
    deferral
    return some .other
  | "collate" =>
    discard next
    return some (.collate (← plainName))
  | "generated" =>
    keywords ["generated", "always", "as"]
    return some (← generatedValue)
  | "as" =>
    discard next
    return some (← generatedValue)
  | _ => return none

/-- The text without a word at its end, and without the white space in front of that. -/
def withoutLast? (word : String) (text : Bytes) : Option Bytes :=
  let size := text.length - word.utf8ByteSize
  if isNamed (text.drop size) word then
    some ((text.take size).reverse.dropWhile Byte.isSpace).reverse
  else none

/-- The type without the words at its end that announce a computed value. -/
def typeOfColumn (text : Bytes) : Bytes :=
  if text.length < 16 then text
  else
    match withoutLast? "always" text with
    | some rest => (withoutLast? "generated" rest).getD rest
    | none => text

def columnDefinition : Reader ColumnDefinition := do
  let name ← name
  let type ← typeName
  return ⟨name, typeOfColumn type, ← many columnRule⟩

/-! ## Rules for tables -/

/-- Takes a term of an index or of a key. -/
def indexedTerm : Reader IndexedTerm := do
  let value ← wholeExpression
  return ⟨value, ← direction⟩

def tableRule : Reader TableRule := do
  match ← anyKeyword ["constraint", "primary", "unique", "check", "foreign"] with
  | "constraint" =>
    discard name
    return .named
  | "primary" =>
    keyword "key"
    mark "("
    let terms ← items indexedTerm
    let isAutomatic ← takeKeyword "autoincrement"
    mark ")"
    return .primaryKey terms isAutomatic (← onConflict)
  | "unique" =>
    let terms ← inParentheses (items indexedTerm)
    return .unique terms (← onConflict)
  | "check" =>
    let condition ← inParentheses wholeExpression
    discard onConflict
    return .check condition
  | _ =>
    keyword "key"
    let columns ← inParentheses (items listedColumn)
    keyword "references"
    let others ← referred
    if ← takeKeyword "not" then
      keyword "deferrable"
      deferral
    else if ← takeKeyword "deferrable" then deferral
    return .foreignKey columns others

/-- Takes a rule for a table, if there is another one. The comma in front may be left out. -/
def furtherRule : Reader (Option TableRule) := do
  if (← atMark ")") then return none
  discard (takeMark ",")
  return some (← tableRule)

/-- Takes columns, and the rules for the table behind them. The fuel bounds the columns. -/
def columnsAndRules : Nat → Reader (List ColumnDefinition × List TableRule)
  | 0 => failure
  | fuel + 1 => do
    let first ← columnDefinition
    if ← atMark ")" then return ([first], [])
    mark ","
    if ← atAnyKeyword ["constraint", "primary", "unique", "check", "foreign"] then
      let rule ← tableRule
      return ([first], rule :: (← many furtherRule))
    let (columns, rules) ← columnsAndRules fuel
    return (first :: columns, rules)

/-- Takes an option of a table: whether it has no row numbers, else that it is strict. -/
def tableOption : Reader Bool := do
  match ← anyKeyword ["without", "strict"] with
  | "without" =>
    keyword "rowid"
    return true
  | _ => return false

def atEnd : Reader Bool := return (← atMark ";") || (← peek?).isNone

def tableDefinition : Reader Definition := do
  if ← takeKeyword "as" then
    discard wholeQuery
    return .snapshot
  let (columns, rules) ← inParentheses do columnsAndRules ((← get).tokens.length + 1)
  let options ← if ← atEnd then pure []
    else do
      discard (takeMark ",")
      items tableOption
  return .table ⟨columns, rules, !options.contains true, options.contains false⟩

/-! ## Virtual tables, indexes and views -/

/-- Takes everything up to the parenthesis that closes the open ones. The fuel bounds the tokens. -/
def balanced : Nat → Nat → Reader Unit
  | 0, _ => failure
  | fuel + 1, depth => do
    let token ← next
    if token.kind == .junk then failure
    else if token.isMark "(" then balanced fuel (depth + 1)
    else if token.isMark ")" then
      match depth with
      | 0 => return
      | depth + 1 => balanced fuel depth
    else balanced fuel depth

/-- Takes what follows the name of a virtual table. -/
def virtualTable : Reader Definition := do
  keyword "using"
  discard name
  if ← takeMark "(" then balanced ((← get).tokens.length + 1) 0
  return .virtualTable

def condition : Reader (Option Expression) := do
  if ← takeKeyword "where" then return some (← wholeExpression) else return none

def indexDefinition (isUnique : Bool) : Reader Definition := do
  keyword "on"
  let table ← name
  let terms ← inParentheses (items indexedTerm)
  return .index ⟨table, terms, isUnique, ← condition⟩

/-- Takes what follows the name of a view, where no variable may stand. -/
def viewDefinition : Reader Definition := do
  let tokens := (← get).tokens
  let columns ← listedColumns
  keyword "as"
  let query ← wholeQuery
  let taken := tokens.take (tokens.length - (← get).tokens.length)
  if taken.any (·.kind == .variable) then failure else return .view ⟨columns, query⟩

/-! ## Triggers -/

/-- Takes one change of a column, or of several at once. -/
def assignment : Reader Unit := do
  if ← atMark "(" then discard (inParentheses (items name)) else discard name
  mark "="
  discard wholeExpression

def assignments : Reader Unit := do
  keyword "set"
  discard (items assignment)

/-- Takes what is done in a conflict, behind a change. -/
def orConflict : Reader Unit := do
  if ← takeKeyword "or" then discard conflictAction

/-- Takes what is done when a new row is in the way of another, if that is said. Only where a key is
named can more be said. The fuel bounds how much. -/
def upserts : Nat → Reader Unit
  | 0 => failure
  | fuel + 1 => do
    if !(← takeKeyword "on") then return
    keyword "conflict"
    let hasKey ← atMark "("
    if hasKey then
      discard (inParentheses (items indexedTerm))
      discard condition
    keyword "do"
    if ← takeKeyword "update" then
      assignments
      discard condition
    else keyword "nothing"
    if hasKey then upserts fuel

def insertion : Reader Unit := do
  keyword "into"
  discard name
  if ← atMark "(" then discard (inParentheses (items name))
  discard wholeQuery
  upserts ((← get).tokens.length + 1)

def triggerStep : Reader Unit := do
  if ← takeKeyword "update" then
    orConflict
    discard name
    assignments
    if ← takeKeyword "from" then discard (sources (fuelFor (← get).tokens) true)
    discard condition
  else if ← takeKeyword "insert" then
    orConflict
    insertion
  else if ← takeKeyword "replace" then insertion
  else if ← takeKeyword "delete" then
    keyword "from"
    discard name
    discard condition
  else discard wholeQuery

/-- Takes a step of a trigger and the semicolon behind it, if there is another one. -/
def furtherStep : Reader (Option Unit) := do
  if ← takeKeyword "end" then return none
  triggerStep
  mark ";"
  return some ()

def triggerDefinition : Reader Definition := do
  let isInstead ←
    if ← takeKeyword "instead" then
      keyword "of"
      pure true
    else do
      if ← atAnyKeyword ["before", "after"] then discard next
      pure false
  match ← anyKeyword ["insert", "delete", "update"] with
  | "update" => if ← takeKeyword "of" then discard (items name)
  | _ => pure ()
  keyword "on"
  let first ← name
  let table ← if ← takeMark "." then name else pure first
  if ← takeKeyword "for" then keywords ["each", "row"]
  if ← takeKeyword "when" then discard wholeExpression
  keyword "begin"
  triggerStep
  mark ";"
  discard (many furtherStep)
  return .trigger ⟨table, isInstead⟩

/-! ## Statements -/

/-- Takes whether an existing thing of the name is accepted. -/
def ifNotExists : Reader Bool := do
  if ← takeKeyword "if" then
    keywords ["not", "exists"]
    return true
  else return false

def createStatement : Reader CreateStatement := do
  keyword "create"
  let isTemporary ← if ← atAnyKeyword ["temp", "temporary"] then
      discard next
      pure true
    else pure false
  let kinds := if isTemporary then ["table", "view", "trigger"]
    else ["table", "view", "trigger", "index", "unique", "virtual"]
  let kind ← anyKeyword kinds
  match kind with
  | "unique" => keyword "index"
  | "virtual" => keyword "table"
  | _ => pure ()
  let isOptional ← ifNotExists
  let name ← name
  let definition ← match kind with
    | "table" => tableDefinition
    | "view" => viewDefinition
    | "trigger" => triggerDefinition
    | "virtual" => virtualTable
    | _ => indexDefinition (kind == "unique")
  if ← atEnd then return ⟨name, isOptional, definition⟩ else failure

end Reader

def CreateStatement.read? (text : Bytes) : Option CreateStatement :=
  let tokens := Token.ofText text
  (Reader.createStatement.run ⟨text, tokens⟩).map (·.1)

end ImageAudit.Sql
