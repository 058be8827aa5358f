import ImageAudit.Sql.Definition
import ImageAudit.Sql.Value

/-! # The catalog

Tables with their columns and indexes, and views. A table with row numbers may have a column that
is another name for them. A table without them is stored like an index, by its primary key.
-/

namespace ImageAudit.Sql

/-- How a column is computed. -/
structure Computation where
  value : Expression
  /-- Whether the rows hold what was computed. -/
  isStored : Bool

structure Column where
  name : Bytes
  affinity : Affinity
  collation : Bytes
  /-- How large the values are thought to be. -/
  size : Nat
  /-- The value in rows that were written before the column was there. -/
  default : Option Expression
  computation : Option Computation

namespace Column

def isVirtual (column : Column) : Bool := column.computation.any fun found => !found.isStored

end Column

/-- What an entry of an index holds. -/
inductive IndexPart where
  | column (position : Nat)
  | rowNumber
  | computed
  deriving DecidableEq, Repr

structure Index where
  name : Bytes
  /-- The page where the index begins. -/
  root : Nat
  /-- What the entries hold: the key, and then what leads to the row. -/
  parts : List IndexPart
  /-- The collations of the key, in order. -/
  collations : List Bytes
  /-- Which parts of the key are in descending order. -/
  descending : List Bool
  /-- Whether no two entries have the same key. -/
  isUnique : Bool
  /-- Whether only some rows have entries. -/
  isPartial : Bool
  action : Option ConflictAction
  isPrimary : Bool
  /-- Whether a statement of its own created it. -/
  isDeclared : Bool

structure Table where
  name : Bytes
  columns : List Column
  root : Nat
  hasRowNumbers : Bool
  /-- The column that is another name for the row numbers. -/
  rowNumber : Option Nat
  /-- The indexes in the order in which they are considered. -/
  indexes : List Index

/-- What has rows. -/
inductive Relation where
  | table (table : Table)
  | view (name : Bytes) (definition : ViewDefinition)
  | virtualTable (name : Bytes)

namespace Relation

def name : Relation → Bytes
  | table found => found.name
  | view name _ | virtualTable name => name

end Relation

structure Catalog where
  relations : List Relation
  triggers : List Bytes

namespace Catalog

def find? (catalog : Catalog) (name : Bytes) : Option Relation :=
  catalog.relations.find? fun relation => sameName relation.name name

def tables (catalog : Catalog) : List Table :=
  catalog.relations.filterMap fun
    | .table table => some table
    | _ => none

def index? (catalog : Catalog) (name : Bytes) : Option (Table × Index) :=
  catalog.tables.findSome? fun table =>
    (table.indexes.find? fun index => sameName index.name name).map (table, ·)

/-- The catalog with another relation in place of that of the same name. -/
def replace (catalog : Catalog) (relation : Relation) : Catalog :=
  { catalog with
    relations := catalog.relations.map fun found =>
      if sameName found.name relation.name then relation else found }

end Catalog

/-! ## Positions -/

namespace Table

/-- The index that a table without row numbers is stored as. -/
def primary? (table : Table) : Option Index := table.indexes.find? (·.isPrimary)

/-- The position of a column in the rows of a table. -/
def storedPosition (table : Table) (column : Nat) : Nat :=
  (table.columns.take column).countP fun column => !column.isVirtual

/-- The position of a column of the given name. -/
def position? (table : Table) (name : Bytes) : Option Nat :=
  table.columns.findIdx? fun column => sameName column.name name

end Table

namespace Index

/-- Whether the collations of the key are known. -/
def isComparable (index : Index) : Bool :=
  index.collations.all fun name => (Collation.ofName? name).isSome

def position? (index : Index) (column : Nat) : Option Nat :=
  index.parts.findIdx? (· = .column column)

end Index

/-! ## Sizes -/

/-- Ten times the binary logarithm of a number, about. -/
def roughLogarithm (value : Nat) : Nat :=
  if value < 2 then 0
  else
    let exponent := Nat.log2 value
    let fraction := ((value * 8) >>> exponent) % 8
    10 * exponent + [0, 2, 3, 5, 6, 7, 8, 9].getD fraction 0

namespace Table

/-- How large the rows are thought to be. -/
def weight (table : Table) : Nat :=
  let columns := table.columns.foldl (· + ·.size) 0
  roughLogarithm (4 * if table.rowNumber.isSome then columns else columns + 1)

/-- How large the entries of an index are thought to be. -/
def indexWeight (table : Table) (index : Index) : Nat :=
  let sizeOf : IndexPart → Nat
    | .column position => (table.columns[position]?.map (·.size)).getD 1
    | _ => 1
  roughLogarithm (4 * index.parts.foldl (· + sizeOf ·) 0)

/-- The columns that a query uses in effect: what a computed column is made of is not known. -/
def usedColumns (table : Table) (used : List Nat) : List Nat :=
  let isComputed (position : Nat) : Bool :=
    table.columns[position]?.any (·.computation.isSome)
  if used.any isComputed then List.range table.columns.length
  else used.filter fun position => table.rowNumber ≠ some position

/-- Whether the entries of an index hold all that a query uses. -/
def isCovered (table : Table) (used : List Nat) (index : Index) : Bool :=
  let holds (position : Nat) : Bool :=
    table.rowNumber = some position || index.parts.contains (.column position)
  let holdsAll := (List.range table.columns.length).all holds
  index.isDeclared && holdsAll || index.isPrimary && !table.hasRowNumbers ||
    (table.usedColumns used).all fun position =>
      index.parts.contains (.column position) &&
        table.columns[position]?.any fun column => !column.isVirtual

end Table

end ImageAudit.Sql
