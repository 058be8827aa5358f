import ImageAudit.Feed
import ImageAudit.Sql.Approach
import ImageAudit.Sql.Formula

/-! # Scopes

A name is looked up in the sources of the innermost query first, then among the results that are
named there, and then in the queries outside. What a query yields is known as a plan: the columns,
and the rows for given rows outside. A plan is told which of its columns are looked at.
-/

namespace ImageAudit.Sql

structure SourceColumn where
  name : Bytes
  affinity : Affinity
  collation : CollationChoice

/-- What is wanted of a source. -/
structure Demand where
  /-- The positions that are looked at. -/
  positions : List Nat
  /-- How the rows are visited, if they are those of a table. -/
  visit : Visit

/-- Rows in their own order, for some positions. -/
def Demand.of (positions : List Nat) : Demand := ⟨positions, .rows⟩

structure RowSource where
  /-- The places outside that the rows are made from. -/
  places : Demand → List Place
  rows : Demand → Rows → Feed Fault Row

structure Plan where
  columns : List SourceColumn
  /-- For each column the names that it has where the rows are put in order. -/
  labels : List (List Bytes)
  /-- Whether rows are put into groups. -/
  isGrouped : Bool
  source : RowSource

/-- The columns of a source as names are looked up in them. -/
structure SourceShape where
  name : Option Bytes
  columns : List SourceColumn
  /-- Whether the position behind the columns holds the number of the row. -/
  hasRowNumbers : Bool
  /-- The column that is another name for the number of the row. -/
  rowNumberName : Option Bytes
  /-- The columns that are one with those of a source before. -/
  shared : List Bytes

/-- What can be named in a query. -/
structure Level where
  sources : List SourceShape
  /-- Results that have names. -/
  results : List (Bytes × Expression)

structure Permissions where
  aggregates : Bool
  queries : Bool
  parameters : Bool
  /-- Names with dots. -/
  dots : Bool
  /-- Functions that depend on more than their arguments. -/
  changing : Bool
  /-- Functions that are not known, and other things that only fail where they are evaluated. -/
  unknown : Bool

def Permissions.ofQuery : Permissions := ⟨false, true, true, true, true, false⟩

/-- The name that an unnamed result has. -/
def unnamed : Bytes := []

/-- A stored row or entry: the value at a position, or none where the row is too short. -/
abbrev Record := Nat → Outcome (Option Value)

/-- How the rows of a file are reached from the pages where tables and indexes begin. -/
structure Storage where
  text : TextStorage
  rows : Nat → Feed Fault (Int × Record)
  /-- The row of a number. -/
  row : Nat → Int → Outcome (Option Record)
  entries : Nat → Feed Fault Record

mutual

/-- What a name that a query gives stands for. -/
inductive CommonBinding where
  /-- A query, in the scope where it is named. -/
  | query (table : CommonTable) (scope : Scope)
  /-- A query that is being looked at. -/
  | pending
  /-- The row that a recursive query goes on from. Its level counts from the outermost. -/
  | current (columns : List SourceColumn) (level : Nat)

inductive Scope where
  | mk (levels : List Level) (tables : List (Bytes × CommonBinding)) (views : List Bytes)
      (permissions : Permissions)

end

namespace Scope

/-- What can be named in the queries, the innermost first. -/
def levels : Scope → List Level
  | mk levels _ _ _ => levels

/-- The names that queries give to queries. -/
def tables : Scope → List (Bytes × CommonBinding)
  | mk _ tables _ _ => tables

def views : Scope → List Bytes
  | mk _ _ views _ => views

def permissions : Scope → Permissions
  | mk _ _ _ permissions => permissions

def outermost : Scope := mk [] [] [] .ofQuery

def push (scope : Scope) (level : Level) : Scope :=
  mk (level :: scope.levels) scope.tables scope.views scope.permissions

def withLevels (scope : Scope) (levels : List Level) : Scope :=
  mk levels scope.tables scope.views scope.permissions

def permitting (scope : Scope) (change : Permissions → Permissions) : Scope :=
  mk scope.levels scope.tables scope.views (change scope.permissions)

/-- The scope in which something is bound to a name. -/
def bind (scope : Scope) (name : Bytes) (binding : CommonBinding) : Scope :=
  mk scope.levels ((name, binding) :: scope.tables) scope.views scope.permissions

def binding? (scope : Scope) (name : Bytes) : Option CommonBinding :=
  (scope.tables.find? fun (found, _) => sameName found name).map (·.2)

/-- The scope of a view, in which nothing from around it can be named. -/
def ofView (scope : Scope) (name : Bytes) : Scope := mk [] [] (name :: scope.views) .ofQuery

end Scope

/-! ## Looking names up -/

/-- Whether a name is one of those of row numbers. -/
def isRowNumberName (name : Bytes) : Bool :=
  isNamed name "rowid" || isNamed name "oid" || isNamed name "_rowid_"

inductive ColumnMeaning where
  | place (place : Place) (column : SourceColumn)
  /-- A result, how many queries outside. -/
  | result (depth : Nat) (value : Expression)

namespace SourceShape

/-- Whether the source goes by a name, or no name is given. -/
def goesBy (shape : SourceShape) : Option Bytes → Bool
  | none => true
  | some name => shape.name.any (sameName name)

def position? (shape : SourceShape) (column : Bytes) : Option Nat :=
  shape.columns.findIdx? fun found => sameName found.name column

def rowNumberColumn (shape : SourceShape) : SourceColumn :=
  ⟨shape.rowNumberName.getD (Bytes.ofText "rowid"), .integer, .none⟩

end SourceShape

namespace Level

/-- The sources of a level that go by a name, with their places. -/
def candidates (level : Level) (table : Option Bytes) : List (SourceShape × Nat) :=
  level.sources.zipIdx.filter fun (shape, _) => shape.goesBy table

/-- Where a name of a column is found among the sources. -/
def columns (level : Level) (table : Option Bytes) (column : Bytes) :
    List (Nat × Nat × SourceColumn) :=
  (level.candidates table).filterMap fun (shape, source) => do
    if table.isNone && shape.shared.any (sameName column) then none
    let position ← shape.position? column
    return (source, position, ← shape.columns[position]?)

/-- What a name means in a level; none if it means nothing there. -/
def meaning? (level : Level) (depth : Nat) (table : Option Bytes) (column : Bytes) :
    Outcome (Option ColumnMeaning) :=
  match level.columns table column with
  | [(source, position, found)] => .ok (some (.place ⟨depth, source, position⟩ found))
  | _ :: _ :: _ => .error (.ambiguous column)
  | [] =>
    match level.candidates table, isRowNumberName column with
    | [(shape, source)], true =>
      if shape.hasRowNumbers then
        .ok (some (.place ⟨depth, source, shape.columns.length⟩ shape.rowNumberColumn))
      else .ok none
    | _, _ =>
      match table, level.results.find? fun (name, _) => sameName name column with
      | none, some (_, value) => .ok (some (.result depth value))
      | _, _ => .ok none

end Level

/-- What a name means in some levels, the first of which is so far outside. -/
def meaningIn? (table : Option Bytes) (column : Bytes) :
    List Level → Nat → Outcome (Option ColumnMeaning)
  | [], _ => .ok none
  | level :: outside, depth => do
    match ← level.meaning? depth table column with
    | some meaning => return some meaning
    | none => meaningIn? table column outside (depth + 1)

/-- What a name means in a scope; none if it means nothing. -/
def Scope.meaning? (scope : Scope) (table : Option Bytes) (column : Bytes) :
    Outcome (Option ColumnMeaning) :=
  meaningIn? table column scope.levels 0

end ImageAudit.Sql
