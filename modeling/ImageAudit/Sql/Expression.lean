import ImageAudit.Sql.Token

/-! # Expressions and queries

What a statement says, before the names in it are looked up. Names and texts are bytes. A query is
one or more selections, put together by set operators, with an order and a limit for the whole.
-/

namespace ImageAudit.Sql

inductive Literal where
  | null
  | integer (digits : Bytes)
  | real (digits : Bytes)
  | text (content : Bytes)
  | blob (content : Bytes)
  /-- The time at which the statement is run. -/
  | currentTime
  deriving DecidableEq, Repr

inductive UnaryOperator where
  | plus
  | minus
  | complement
  | not
  | isNull
  | notNull
  deriving DecidableEq, Repr

inductive BinaryOperator where
  | or
  | and
  | equal
  | notEqual
  | isSame
  | isNotSame
  | less
  | lessEqual
  | greater
  | greaterEqual
  | bitAnd
  | bitOr
  | shiftLeft
  | shiftRight
  | add
  | subtract
  | multiply
  | divide
  | remainder
  | concat
  | extract
  | extractText
  deriving DecidableEq, Repr

inductive PatternKind where
  | like
  | glob
  | regexp
  | matches
  deriving DecidableEq, Repr

/-- How the rows of an order are placed. -/
structure Direction where
  isDescending : Bool
  /-- Where the rows without a value go, if that is said. -/
  nullsFirst? : Option Bool
  deriving DecidableEq, Repr

inductive SetOperator where
  | union
  | unionAll
  | except
  | intersect
  deriving DecidableEq, Repr

structure JoinKind where
  isNatural : Bool
  keepsLeft : Bool
  keepsRight : Bool
  /-- Whether it is visited behind those before. -/
  isCross : Bool
  deriving DecidableEq, Repr

def JoinKind.inner : JoinKind := ⟨false, false, false, false⟩

/-- Which index a table may be read by. -/
inductive IndexHint where
  | any
  | none
  | named (name : Bytes)
  deriving DecidableEq, Repr

mutual

inductive Expression where
  | literal (value : Literal)
  /-- A name in double quotes may be a text. -/
  | name (name : Bytes) (isDoubleQuoted : Bool)
  /-- A name behind that of a table, and perhaps that of a file. -/
  | qualified (file : Option Bytes) (table column : Bytes)
  | variable
  | unary (operator : UnaryOperator) (operand : Expression)
  | binary (operator : BinaryOperator) (left right : Expression)
  | collate (operand : Expression) (collation : Bytes)
  | cast (operand : Expression) (type : Bytes)
  | call (function : Bytes) (arguments : Arguments)
  | pattern (kind : PatternKind) (isNegated : Bool) (subject pattern : Expression)
      (escape : Option Expression)
  | between (isNegated : Bool) (subject low high : Expression)
  | inList (isNegated : Bool) (subject : Expression) (items : List Expression)
  | inQuery (isNegated : Bool) (subject : Expression) (query : Query)
  | inTable (isNegated : Bool) (subject : Expression) (source : Source)
  | exists (query : Query)
  | scalar (query : Query)
  | vector (items : List Expression)
  | choice (subject : Option Expression) (branches : List (Expression × Expression))
      (otherwise : Option Expression)
  | raise

inductive Arguments where
  | mk (isDistinct isStar : Bool) (items : List Expression)
      (order : List (Expression × Direction)) (filter : Option Expression) (window : Option Window)

/-- The rows around a row. Only its expressions matter here. -/
inductive Window where
  | mk (expressions : List Expression)

/-- What a query yields: the rows of selections that set operators put together. -/
inductive Query where
  | mk (isRecursive : Bool) (tables : List CommonTable) (first : Selection)
      (rest : List (SetOperator × Selection)) (order : List (Expression × Direction))
      (limit offset : Option Expression)

/-- A query with a name of its own. -/
inductive CommonTable where
  | mk (name : Bytes) (columns : List Bytes) (query : Query)

inductive Selection where
  | select (isDistinct : Bool) (results : List ResultColumn) (sources : List Source)
      (condition : Option Expression) (group : List Expression) (having : Option Expression)
      (windows : List Window)
  | values (rows : List (List Expression))

inductive ResultColumn where
  | all
  | allOf (table : Bytes)
  | expression (value : Expression) (name : Option Bytes)

/-- Where rows come from, and how they are joined to those of the sources before. -/
inductive Source where
  | mk (item : SourceItem) (name : Option Bytes) (join : JoinKind) (condition : Option Expression)
      (shared : List Bytes)

inductive SourceItem where
  | table (name : Bytes) (hint : IndexHint)
  | function (name : Bytes) (arguments : List Expression)
  | query (query : Query)
  | group (sources : List Source)

end

end ImageAudit.Sql
