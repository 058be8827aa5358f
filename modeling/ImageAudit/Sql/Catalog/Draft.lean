import ImageAudit.Sql.Plan

/-! # Tables as they are defined

The definition of a table is taken in order: each column with its rules, and then the rules for the
table. A rule may stand in the way of another one. A key makes an index, unless it is another name
for the row numbers. Names in conditions and in computed columns must be those of the table itself.
-/

namespace ImageAudit.Sql

/-! ## Types -/

/-- The type of a column that is named by one of the usual words. -/
inductive UsualType where
  | any
  | blob
  | int
  | integer
  | real
  | text
  deriving DecidableEq, Repr

namespace UsualType

def names : List (String × UsualType) :=
  [("any", any), ("blob", blob), ("int", int), ("integer", integer), ("real", real),
    ("text", text)]

/-- Whether a byte begins quotes. -/
def isQuote (byte : UInt8) : Bool := [0x22, 0x27, 0x5B, 0x60].contains byte

/-- A text that is in quotes as a whole, without them. -/
def unquoted (type : Bytes) : Bytes :=
  let inside := (type.drop 1).dropLast
  if type.length < 2 || !(type.head?.any isQuote) || inside.any isQuote then type else inside

def ofText? (type : Bytes) : Option UsualType :=
  if type.length < 3 then none
  else (names.find? fun (name, _) => isNamed (unquoted type) name).map (·.2)

def affinity : UsualType → Affinity
  | any => .numeric
  | blob => .blob
  | int | integer => .integer
  | real => .real
  | text => .text

def size : UsualType → Nat
  | blob | text => 5
  | _ => 1

end UsualType

/-- The affinity of a column of a type, and how large its values are thought to be. -/
def affinityOfType (type : Bytes) : Affinity × Nat :=
  match UsualType.ofText? type with
  | some usual => (usual.affinity, usual.size)
  | none =>
    if type = [] then (.blob, 1)
    else (Affinity.ofType type, Affinity.sizeOfType type)

/-! ## Constants -/

/-- Whether an expression can be a default value: no name may stand in it, and no query. The fuel
bounds its depth. -/
def Expression.isConstant : Nat → Expression → Bool
  | 0, _ => false
  | fuel + 1, expression =>
    let all (items : List Expression) : Bool := items.all (isConstant fuel)
    match expression with
    | .literal _ | .variable | .raise => true
    | .name word isDoubleQuoted => !isDoubleQuoted && (truthOf? word).isSome
    | .qualified .. | .inQuery .. | .inTable .. | .exists _ | .scalar _ => false
    | .unary _ operand | .collate operand _ | .cast operand _ => isConstant fuel operand
    | .binary _ left right => all [left, right]
    | .call _ (.mk _ _ items order filter window) =>
      window.isNone && all items && all (order.map (·.1)) && all filter.toList
    | .pattern _ _ subject form escape => all (subject :: form :: escape.toList)
    | .between _ subject low high => all [subject, low, high]
    | .inList _ subject items => all (subject :: items)
    | .vector items => all items
    | .choice subject branches otherwise =>
      all (subject.toList ++ otherwise.toList) && all (branches.flatMap fun (a, b) => [a, b])

/-! ## Drafts -/

/-- A table that is being defined. -/
structure TableDraft where
  table : Table
  /-- The columns of the primary key. -/
  keyColumns : List Nat
  hasKey : Bool
  /-- What is done when row numbers are in conflict. -/
  keyAction : Option ConflictAction
  /-- Whether row numbers are never used again. -/
  isAutomatic : Bool
  checks : List Expression

abbrev Drafting := StateT TableDraft Outcome

namespace TableDraft

def empty (name : Bytes) (root : Nat) : TableDraft :=
  ⟨⟨name, [], root, true, none, []⟩, [], false, none, false, []⟩

def refuse : Drafting α := do throw (.schema (← get).table.name)

def lastColumn : Drafting Nat := return (← get).table.columns.length - 1

def changeLast (change : Column → Column) : Drafting Unit :=
  modify fun draft =>
    let columns := draft.table.columns
    { draft with table.columns := columns.dropLast ++ (columns.getLast?.map change).toList }

/-- The last column, when a key or a computation is stated for it. -/
def refuseIf (isRefused : Bool) : Drafting Unit := if isRefused then refuse else return

/-! ## Indexes -/

/-- What an expression in an index or in a computed column may hold. -/
def permissionsOfIndex : Permissions := ⟨false, false, false, false, false, true⟩

/-- What a condition for all rows may hold. -/
def permissionsOfCheck : Permissions := ⟨false, false, false, true, true, true⟩

/-- What the condition of an index may hold. -/
def permissionsOfPartial : Permissions := ⟨false, false, false, true, false, true⟩

def scopeOf (table : Table) (namesNumbers : Bool) (permissions : Permissions) : Scope :=
  let shape := { table.shape none with hasRowNumbers := table.hasRowNumbers && namesNumbers }
  (Scope.outermost.push ⟨[shape], []⟩).permitting fun _ => permissions

/-- What an expression of a definition is evaluated with, which is nothing. -/
def noDatabase : Database :=
  ⟨⟨[], []⟩, ⟨.plain, fun _ => .done, fun _ _ => .ok none, fun _ => .done⟩⟩

/-- The deepest expression of a definition. -/
def maxDepth : Nat := 4096

/-- Whether an expression makes sense in the definition of a table. That a collation is not known
does not matter before it is used. -/
def isSound (scope : Scope) (expression : Expression) : Bool :=
  match (formula noDatabase maxDepth scope expression).run' [] with
  | .ok _ => true
  | .error (.collationMissing _) => true
  | .error _ => false

def textAsName : Expression → Expression
  | .literal (.text content) => .name content false
  | .collate (.literal (.text content)) name => .collate (.name content false) name
  | expression => expression

/-- The name that an expression is, but for a collation. -/
def plainName? (expression : Expression) : Option Bytes :=
  match (withoutCollation (textAsName expression)).1 with
  | .name name _ => some name
  | _ => none

def indexPart (table : Table) (term : IndexedTerm) : Outcome (IndexPart × Bytes) := do
  let value := textAsName term.value
  let (_, collation?) := withoutCollation value
  let binary := Bytes.ofText "BINARY"
  if term.direction.nullsFirst?.isSome then throw (.schema table.name)
  match (plainName? value).bind table.position? with
  | some position =>
    let own := (table.columns[position]?.map (·.collation)).getD binary
    return (.column position, collation?.getD own)
  | none =>
    if isSound (scopeOf table false permissionsOfIndex) value then
      return (.computed, collation?.getD binary)
    else throw (.schema table.name)

/-- The parts of a key without those of another key that it has. -/
def partsBeyond (key : List (IndexPart × Bytes)) (others : List (IndexPart × Bytes)) :
    List (IndexPart × Bytes) :=
  others.filter fun (part, collation) =>
    !key.any fun (found, own) => found = part && sameName own collation

/-- What the entries of an index of a table hold behind its key. -/
def rowParts (table : Table) (key : List (IndexPart × Bytes)) : List IndexPart :=
  if table.hasRowNumbers then [.rowNumber]
  else
    match table.primary? with
    | some primary =>
      (partsBeyond key (primary.parts.zip primary.collations)).map (·.1)
    | none => []

/-- The indexes of a table with another one, which comes first. Those that make room for new rows
come last. -/
def withIndex (indexes : List Index) (index : Index) : List Index :=
  let all := index :: indexes
  let replaces (index : Index) : Bool := index.action = some .replace
  all.filter (fun index => !replaces index) ++ all.filter replaces

def sameKey (a b : Index) : Bool :=
  a.collations.length = b.collations.length &&
    a.parts.take a.collations.length = b.parts.take b.collations.length &&
    (a.collations.zip b.collations).all fun (x, y) => sameName x y

/-- Adds the index of a key, unless there is one. -/
def addKey (terms : List IndexedTerm) (action : Option ConflictAction) (isPrimary : Bool) :
    Drafting Unit := do
  let draft ← get
  let table := draft.table
  let key ← terms.mapM fun term => (indexPart table term : Outcome _)
  refuseIf (key.any fun (part, _) => part = .computed)
  let name := Bytes.ofText "sqlite_autoindex_" ++ table.name ++
    Bytes.ofText s!"_{table.indexes.length + 1}"
  let index : Index :=
    { name
      root := 0
      parts := key.map (·.1) ++ [.rowNumber]
      collations := key.map (·.2)
      descending := terms.map (·.direction.isDescending)
      isUnique := true
      isPartial := false
      action
      isPrimary
      isDeclared := false }
  match table.indexes.find? (sameKey index) with
  | none => set { draft with table.indexes := withIndex table.indexes index }
  | some found =>
    refuseIf (found.action ≠ action && found.action.isSome && action.isSome)
    let merged :=
      { found with
        action := found.action.orElse fun _ => action
        isPrimary := found.isPrimary || isPrimary }
    let others := table.indexes.map fun index => if sameKey index found then merged else index
    let replaces (index : Index) : Bool := index.action = some .replace
    set { draft with
      table.indexes := others.filter (fun index => !replaces index) ++ others.filter replaces }

def termOf (name : Bytes) : IndexedTerm := ⟨.name name false, ⟨false, none⟩⟩

/-! ## Keys -/

def isComputed (table : Table) (position : Nat) : Bool :=
  table.columns[position]?.any (·.computation.isSome)

/-- States the primary key. The types are those of the columns. -/
def addPrimaryKey (types : List Bytes) (columns : List Nat) (terms : List IndexedTerm)
    (isDescending : Bool) (action : Option ConflictAction) (isAutomatic : Bool) :
    Drafting Unit := do
  let draft ← get
  refuseIf draft.hasKey
  refuseIf (columns.any (isComputed draft.table))
  set { draft with hasKey := true, keyColumns := columns }
  let isNumber (position : Nat) : Bool :=
    (types[position]?.bind UsualType.ofText?) = some .integer
  match terms, columns with
  | [_], [position] =>
    if isNumber position && !isDescending then
      modify fun draft =>
        { draft with table.rowNumber := some position, keyAction := action, isAutomatic }
      refuseIf (terms.any fun term => term.direction.nullsFirst?.isSome)
    else
      refuseIf isAutomatic
      addKey terms action true
  | _, _ =>
    refuseIf isAutomatic
    addKey terms action true

/-! ## Columns -/

def addColumnRule (types : List Bytes) (depth : Nat) : ColumnRule → Drafting Unit
  | .default value => do
    refuseIf (!value.isConstant depth)
    let draft ← get
    refuseIf (isComputed draft.table (← lastColumn))
    changeLast fun column => { column with default := some value }
  | .notNull | .other => return
  | .primaryKey isDescending action isAutomatic => do
    let position ← lastColumn
    let name := ((← get).table.columns[position]?.map (·.name)).getD []
    addPrimaryKey types [position] [termOf name] isDescending action isAutomatic
  | .unique action => do
    let name := ((← get).table.columns.getLast?.map (·.name)).getD []
    addKey [termOf name] action false
  | .check condition => modify fun draft => { draft with checks := draft.checks ++ [condition] }
  | .references columns => refuseIf (1 < columns.length)
  | .collate name => do
    let position ← lastColumn
    changeLast fun column => { column with collation := name }
    modify fun draft =>
      { draft with
        table.indexes := draft.table.indexes.map fun index =>
          if index.parts.head? = some (.column position) && index.collations.length = 1 then
            { index with collations := [name] }
          else index }
  | .generated value storage => do
    let draft ← get
    let position ← lastColumn
    let hasValue := draft.table.columns[position]?.any fun column =>
      column.default.isSome || column.computation.isSome
    let isStored := storage.any fun storage => isNamed storage "stored"
    refuseIf (hasValue || draft.keyColumns.contains position)
    refuseIf (!isStored && storage.any fun storage => !isNamed storage "virtual")
    let value := match value with
      | .name .. => .unary .plus value
      | _ => value
    changeLast fun column => { column with computation := some ⟨value, isStored⟩ }

def maxColumns : Nat := 2000

def addColumn (depth : Nat) (types : List Bytes) (definition : ColumnDefinition) :
    Drafting Unit := do
  let draft ← get
  refuseIf (draft.table.columns.any fun column => sameName column.name definition.name)
  refuseIf (maxColumns ≤ draft.table.columns.length)
  let (affinity, size) := affinityOfType definition.type
  let column : Column :=
    ⟨definition.name, affinity, Bytes.ofText "BINARY", size, none, none⟩
  set { draft with table.columns := draft.table.columns ++ [column] }
  definition.rules.forM (addColumnRule types depth)

/-! ## Rules for the table -/

def addTableRule (types : List Bytes) : TableRule → Drafting Unit
  | .primaryKey terms isAutomatic action => do
    let table := (← get).table
    let columns := terms.filterMap fun term => (plainName? term.value).bind table.position?
    addPrimaryKey types columns terms false action isAutomatic
  | .unique terms action => addKey terms action false
  | .check condition => modify fun draft => { draft with checks := draft.checks ++ [condition] }
  | .foreignKey columns others => do
    let table := (← get).table
    refuseIf (others ≠ [] && others.length ≠ columns.length)
    refuseIf (columns.any fun column => (table.position? column).isNone)
  | .named => return

/-! ## The table as a whole -/

/-- The table with the affinities of a strict one, in which each column has a usual type. -/
def makeStrict (types : List Bytes) : Drafting Unit := do
  refuseIf (types.any fun type => (UsualType.ofText? type).isNone)
  modify fun draft =>
    let columns := (draft.table.columns.zip types).map fun (column, type) =>
      if UsualType.ofText? type = some .any then { column with affinity := .blob } else column
    { draft with table.columns := columns }

def distinctParts (key : List (IndexPart × Bytes)) : List (IndexPart × Bytes) :=
  key.foldl (fun taken part => taken ++ partsBeyond taken [part]) []

/-- Stores the table by its primary key. -/
def removeRowNumbers : Drafting Unit := do
  let draft ← get
  refuseIf (draft.isAutomatic || !draft.hasKey)
  match draft.table.rowNumber.bind fun position => draft.table.columns[position]? with
  | some column =>
    set { draft with table.rowNumber := none }
    addKey [termOf column.name] draft.keyAction true
  | none => pure ()
  let table := (← get).table
  match table.primary? with
  | none => refuse
  | some primary =>
    let keyed := (primary.parts.take primary.collations.length).zip primary.collations
    let key := distinctParts keyed
    let others := ((List.range table.columns.length).map IndexPart.column).filter fun part =>
      !(key.map (·.1)).contains part
    let stored := others.filter fun
      | .column position => !(table.columns[position]?.any (·.isVirtual))
      | _ => true
    let change (index : Index) : Index :=
      if index.isPrimary then
        { index with
          parts := key.map (·.1) ++ stored
          collations := key.map (·.2)
          root := table.root }
      else
        let own := (index.parts.take index.collations.length).zip index.collations
        { index with parts := own.map (·.1) ++ (partsBeyond own key).map (·.1) }
    modify fun draft =>
      { draft with
        table.hasRowNumbers := false
        table.indexes := table.indexes.map change }

/-- Checks the conditions and the computed columns of the table. -/
def checkExpressions (checksConditions : Bool) : Drafting Unit := do
  let draft ← get
  let table := draft.table
  let conditions := scopeOf table true permissionsOfCheck
  refuseIf (checksConditions && !draft.checks.all (isSound conditions))
  let computed := table.columns.filterMap (·.computation)
  refuseIf (!(computed.all fun found =>
    isSound (scopeOf table false permissionsOfIndex) found.value))
  refuseIf (computed.length = table.columns.length)

def define (definition : TableDefinition) (depth : Nat) (checksConditions : Bool) :
    Drafting Unit := do
  let types := definition.columns.map (·.type)
  definition.columns.forM (addColumn depth types)
  definition.rules.forM (addTableRule types)
  if definition.isStrict then makeStrict types
  if !definition.hasRowNumbers then removeRowNumbers
  checkExpressions checksConditions

end TableDraft

/-- The table of a definition. The depth is greater than that of any expression in it. -/
def Table.ofDefinition (name : Bytes) (root : Nat) (definition : TableDefinition) (depth : Nat)
    (checksConditions : Bool) : Outcome Table := do
  let (_, draft) ← (TableDraft.define definition depth checksConditions).run (.empty name root)
  return draft.table

end ImageAudit.Sql
