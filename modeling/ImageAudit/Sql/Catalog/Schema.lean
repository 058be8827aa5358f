import ImageAudit.Sql.Catalog.Draft
import ImageAudit.Sql.Reader.Definition

/-! # The catalog of a file

A file lists what is in it: for each thing the kind, the name, the table that it belongs to, the
page where it begins, and the statement that created it. The statements are read in order and make
the catalog. Each must agree with what is said beside it, and with the things before. An index that
a key made has no statement, only a page.
-/

namespace ImageAudit.Sql

structure SchemaEntry where
  kind : Option Bytes
  name : Option Bytes
  table : Option Bytes
  root : Option Bytes
  statement : Option Bytes
  deriving DecidableEq, Repr

/-- What is true for a file as a whole. -/
structure SchemaLimits where
  /-- The number of pages. -/
  pageCount : Nat
  /-- Whether the file can be written. -/
  isWritable : Bool

namespace SchemaEntry

def ofValues (storage : TextStorage) (values : List Value) : SchemaEntry :=
  let text (position : Nat) : Option Bytes :=
    ((values.getD position .null).textBytes? storage).map Bytes.untilZero
  ⟨text 0, text 1, text 2, text 3, text 4⟩

def shownName (entry : SchemaEntry) : Bytes := entry.name.getD (Bytes.ofText "?")

/-- The number of 32 bits that a text is, with the next one standing for zero. -/
def pageNumber? (text : Bytes) : Option Nat :=
  if text = [] || !text.all Byte.isDigit || 0x100000000 < Numeral.natOf text then none
  else some (Numeral.natOf text % 0x100000000)

/-- Whether the entry says what a statement says. -/
def agrees (entry : SchemaEntry) (kind : String) (name table : Bytes) : Bool :=
  entry.kind.any (isNamed · kind) && entry.name.any (sameName name) &&
    entry.table.any (sameName table)

/-- Whether an entry has a statement that creates something. -/
def hasStatement (entry : SchemaEntry) : Bool :=
  match entry.statement with
  | some (c :: r :: _) => Byte.lower c = 0x63 && Byte.lower r = 0x72
  | _ => false

end SchemaEntry

namespace Catalog

/-- The name of the list itself. -/
def listName : Bytes := Bytes.ofText "sqlite_master"

def listRoot : Nat := 1

def listTable : Table :=
  let column (name : String) (affinity : Affinity) : Column :=
    ⟨Bytes.ofText name, affinity, Bytes.ofText "BINARY", 5, none, none⟩
  { name := listName
    columns := [column "type" .text, column "name" .text, column "tbl_name" .text,
      column "rootpage" .integer, column "sql" .text]
    root := listRoot
    hasRowNumbers := true
    rowNumber := none
    indexes := [] }

/-- The catalog of a file with nothing in it. -/
def initial : Catalog := ⟨[.table listTable], []⟩

/-- Whether a name is one that only the system gives. -/
def isSystemName (name : Bytes) : Bool := isNamed (name.take 7) "sqlite_"

def relationOf (limits : SchemaLimits) (entry : SchemaEntry) (root : Nat) (name : Bytes) :
    Definition → Outcome Relation
  | .table definition => do
    let depth := (entry.statement.map List.length).getD 0 + 1
    return .table (← Table.ofDefinition name root definition depth limits.isWritable)
  | .view definition =>
    if root = 0 then .ok (.view name definition) else .error (.schema entry.shownName)
  | .virtualTable => .ok (.virtualTable name)
  | _ => .error (.schema entry.shownName)

def addRelation (catalog : Catalog) (limits : SchemaLimits) (entry : SchemaEntry) (root : Nat)
    (kind : String) (statement : CreateStatement) : Outcome Catalog := do
  let refused : Fault := .schema entry.shownName
  let name := if root = listRoot then listName else statement.name
  if !entry.agrees kind name name then throw refused
  if (catalog.find? name).isSome then
    if statement.isOptional then return catalog else throw refused
  if (catalog.index? name).isSome then throw refused
  let relation ← relationOf limits entry root name statement.definition
  return { catalog with relations := catalog.relations ++ [relation] }

def addIndex (catalog : Catalog) (entry : SchemaEntry) (root : Nat) (statement : CreateStatement)
    (definition : IndexDefinition) : Outcome Catalog := do
  let refused : Fault := .schema entry.shownName
  let some (.table table) := catalog.find? definition.table | throw refused
  if !entry.agrees "index" statement.name table.name then throw refused
  if (catalog.index? statement.name).isSome then
    if statement.isOptional then return catalog else throw refused
  let isSound (condition : Expression) : Bool :=
    TableDraft.isSound (TableDraft.scopeOf table true TableDraft.permissionsOfPartial) condition
  if !definition.condition.all isSound then throw refused
  let key ← definition.terms.mapM (TableDraft.indexPart table)
  if table.indexes.any fun index => index.root = root then throw refused
  let index : Index :=
    { name := statement.name
      root
      parts := key.map (·.1) ++ TableDraft.rowParts table key
      collations := key.map (·.2)
      descending := definition.terms.map (·.direction.isDescending)
      isUnique := definition.isUnique
      isPartial := definition.condition.isSome
      action := none
      isPrimary := false
      isDeclared := true }
  return catalog.replace (.table
    { table with indexes := TableDraft.withIndex table.indexes index })

def addTrigger (catalog : Catalog) (entry : SchemaEntry) (statement : CreateStatement)
    (definition : TriggerDefinition) : Outcome Catalog := do
  let refused : Fault := .schema entry.shownName
  let some relation := catalog.find? definition.table | throw refused
  if !entry.agrees "trigger" statement.name relation.name then throw refused
  if catalog.triggers.any (sameName statement.name) then
    if statement.isOptional then return catalog else throw refused
  let isView ← match relation with
    | .table _ => pure false
    | .view .. => pure true
    | .virtualTable _ => throw refused
  if isSystemName relation.name || isView ≠ definition.isInstead then throw refused
  return { catalog with triggers := statement.name :: catalog.triggers }

def addStatement (catalog : Catalog) (limits : SchemaLimits) (entry : SchemaEntry) (root : Nat)
    (statement : CreateStatement) : Outcome Catalog :=
  match statement.definition with
  | .index definition => catalog.addIndex entry root statement definition
  | .trigger definition => catalog.addTrigger entry statement definition
  | .view _ => catalog.addRelation limits entry root "view" statement
  | .table _ | .snapshot | .virtualTable =>
    catalog.addRelation limits entry root "table" statement

/-- The catalog in which an index that a key made has its page. -/
def placeIndex (catalog : Catalog) (limits : SchemaLimits) (entry : SchemaEntry) (root : Bytes) :
    Outcome Catalog := do
  let refused : Fault := .schema entry.shownName
  let some name := entry.name | throw refused
  let some (table, index) := catalog.index? name | throw refused
  let some root := SchemaEntry.pageNumber? root | throw refused
  let others := table.indexes.filter fun other => !sameName other.name name
  if root < 2 || limits.pageCount < root || others.any (fun other => other.root = root) then
    throw refused
  return catalog.replace (.table
    { table with
      indexes := table.indexes.map fun found =>
        if sameName found.name index.name then { found with root } else found })

/-- The catalog with what an entry lists. -/
def addEntry (limits : SchemaLimits) (catalog : Catalog) (entry : SchemaEntry) :
    Outcome Catalog := do
  let refused : Fault := .schema entry.shownName
  let some root := entry.root | throw refused
  if entry.hasStatement then
    let some root := SchemaEntry.pageNumber? root | throw refused
    if limits.pageCount < root then throw refused
    match CreateStatement.read? (entry.statement.getD []) with
    | some statement => catalog.addStatement limits entry root statement
    | none => throw refused
  else if entry.name.isNone || entry.statement.any (· ≠ []) then throw refused
  else catalog.placeIndex limits entry root

def ofEntries (limits : SchemaLimits) (entries : List SchemaEntry) : Outcome Catalog :=
  entries.foldlM (addEntry limits) initial

end Catalog

end ImageAudit.Sql
