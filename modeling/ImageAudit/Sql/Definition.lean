import ImageAudit.Sql.Expression

/-! # Definitions

What the statements say that create tables, indexes, views and triggers. A rule for a column stands
behind it and a rule for a table behind all columns.
-/

namespace ImageAudit.Sql

/-- What is done when a row breaks a rule. -/
inductive ConflictAction where
  | rollback
  | abort
  | fail
  | ignore
  | replace
  deriving DecidableEq, Repr

structure IndexedTerm where
  value : Expression
  direction : Direction

/-- A rule that stands behind a column. -/
inductive ColumnRule where
  | default (value : Expression)
  | notNull
  | primaryKey (isDescending : Bool) (action : Option ConflictAction) (isAutomatic : Bool)
  | unique (action : Option ConflictAction)
  | check (condition : Expression)
  | references (columns : List Bytes)
  | collate (name : Bytes)
  /-- The column is computed; the storage may be named. -/
  | generated (value : Expression) (storage : Option Bytes)
  /-- Something that has no meaning for reading. -/
  | other

structure ColumnDefinition where
  name : Bytes
  /-- The type as it is written; empty if there is none. -/
  type : Bytes
  rules : List ColumnRule

/-- A rule that stands behind all columns. -/
inductive TableRule where
  | primaryKey (terms : List IndexedTerm) (isAutomatic : Bool) (action : Option ConflictAction)
  | unique (terms : List IndexedTerm) (action : Option ConflictAction)
  | check (condition : Expression)
  | foreignKey (columns others : List Bytes)
  /-- The name of a rule. -/
  | named

structure TableDefinition where
  columns : List ColumnDefinition
  rules : List TableRule
  hasRowNumbers : Bool
  isStrict : Bool

structure IndexDefinition where
  table : Bytes
  terms : List IndexedTerm
  isUnique : Bool
  /-- Only rows for which it holds are in the index. -/
  condition : Option Expression

structure ViewDefinition where
  columns : List Bytes
  query : Query

structure TriggerDefinition where
  table : Bytes
  /-- Whether it takes the place of what is done to a view. -/
  isInstead : Bool

inductive Definition where
  | table (definition : TableDefinition)
  /-- A table of which the rows are those of a query when it is created. -/
  | snapshot
  | virtualTable
  | view (definition : ViewDefinition)
  | index (definition : IndexDefinition)
  | trigger (definition : TriggerDefinition)

structure CreateStatement where
  name : Bytes
  /-- Whether nothing happens when there is something of the name. -/
  isOptional : Bool
  definition : Definition

end ImageAudit.Sql
