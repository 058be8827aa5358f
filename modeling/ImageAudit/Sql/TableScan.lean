import ImageAudit.Sql.Scope

/-! # Rows of tables

The values of a row are read from the record that the table or an index has for it, by the position
that the column has there. A column that the record is too short for has its default value. A
computed column that is not stored is computed from the others.
-/

namespace ImageAudit.Sql

/-! ## Literals -/

/-- The value of a hexadecimal number, which gives the 64 bits. -/
def hexValue? (digits : Bytes) : Option Int :=
  let chars := (digits.drop 2).map fun digit => Char.ofNat digit.toNat
  match Hex.natOf? chars with
  | some value => if value < 0x10000000000000000 then some (Bytes.signed 8 value) else none
  | none => none

def isHexNumber (digits : Bytes) : Bool :=
  (digits.drop 1).head?.any fun byte => Byte.lower byte = 0x78

def numberValue (isNegative : Bool) (digits : Bytes) : Outcome Value :=
  if isHexNumber digits then
    match hexValue? digits with
    | some value =>
      if isNegative && value = -0x8000000000000000 then .error (.value "hex literal too big")
      else .ok (.integer (if isNegative then -value else value))
    | none => .error (.value "hex literal too big")
  else
    let numeral := Numeral.read (if isNegative then 0x2D :: digits else digits)
    if numeral.isPlain && inWholeRange numeral.whole then .ok (.integer numeral.whole)
    else .ok (.real numeral.toFloat)

/-- The value that is written out; none for the current time. -/
def Literal.value : Literal → Outcome Value
  | .null => .ok .null
  | .integer digits | .real digits => numberValue false digits
  | .text content => .ok (.text content)
  | .blob content => .ok (.blob content)
  | .currentTime => .error (.unsupported "the current time")

/-! ## Default values -/

/-- The value of a number that is written out, as a column of an affinity keeps it. What is no whole
number is kept like a text. -/
def writtenNumber (affinity : Affinity) (isNegative : Bool) (digits : Bytes) : Value :=
  let value : Value := match numberValue isNegative digits with
    | .ok (.integer number) => .integer number
    | _ => .text (if isNegative then 0x2D :: digits else digits)
  value.withAffinity (if affinity = .blob then .numeric else affinity)

/-- The value that an expression writes out, with signs and casts, as a column of an affinity keeps
it; none if there is more to the expression. -/
def Expression.constant? (storage : TextStorage) : Affinity → Expression → Option Value
  | affinity, .unary .plus operand => constant? storage affinity operand
  | affinity, .cast operand type =>
    let target := Affinity.ofType type
    (constant? storage target operand).map fun value =>
      (value.cast storage target).withAffinity affinity
  | affinity, .unary .minus operand => do
    match operand with
    | .literal (.integer digits) | .literal (.real digits) =>
      return writtenNumber affinity true digits
    | _ =>
      let value := (← constant? storage affinity operand).withAffinity .numeric
      let negated : Value := match value with
        | .integer number =>
          if number = -0x8000000000000000 then .real 9223372036854775808.0 else .integer (-number)
        | .real number => .real (-number)
        | _ => .integer 0
      return negated.withAffinity affinity
  | affinity, .literal (.integer digits) | affinity, .literal (.real digits) =>
    some (writtenNumber affinity false digits)
  | affinity, .literal value => (value.value.toOption).map (·.withAffinity affinity)
  | affinity, .name word false =>
    if isNamed word "true" then some ((Value.integer 1).withAffinity affinity)
    else if isNamed word "false" then some ((Value.integer 0).withAffinity affinity)
    else none
  | _, _ => none

/-! ## Records -/

namespace Column

/-- The value in a row that was written before the column was there. -/
def absentValue (storage : TextStorage) (column : Column) : Value :=
  let written := match column.computation with
    | some computation => some computation.value
    | none => column.default
  (written.bind (Expression.constant? storage column.affinity)).getD .null

/-- The value as the column yields it. -/
def yielded (column : Column) (value : Value) : Value :=
  if column.affinity = .real then value.asReal else value

/-- A computed value as the column yields it. -/
def computed (column : Column) (value : Value) : Value :=
  column.yielded (if column.affinity = .blob then value else value.withAffinity column.affinity)

end Column

namespace Table

/-- The value of a column in a record where it has the given position. -/
def fromRecord (table : Table) (storage : TextStorage) (record : Record) (column : Nat)
    (position : Option Nat) : Outcome Value := do
  match table.columns[column]?, position with
  | some found, some position =>
    match ← record position with
    | some value => return found.yielded value
    | none => return found.yielded (found.absentValue storage)
  | _, _ => return .null

/-- A row in which virtual columns are computed from the others. The fuel bounds how often one
computed column leads to another. -/
def computedRow (table : Table) (formulas : List (Option Formula)) (stored : Row) : Nat → Row
  | 0, _ => .error (.circular table.name)
  | fuel + 1, position =>
    match (formulas[position]?).join, table.columns[position]? with
    | some formula, some column =>
      (formula.value [[computedRow table formulas stored fuel]]).map column.computed
    | _, _ => stored position

def rowOfTable (table : Table) (storage : TextStorage) (number : Int) (record : Record) : Row :=
  fun position =>
    if position = table.columns.length || table.rowNumber = some position then
      .ok (.integer number)
    else table.fromRecord storage record position (some (table.storedPosition position))

def rowOfEntry (table : Table) (storage : TextStorage) (index : Index) (record : Record) : Row :=
  fun position =>
    if position = table.columns.length || table.rowNumber = some position then do
      match index.parts.findIdx? (· = .rowNumber) with
      | some place => return ((← record place).getD .null)
      | none => return .null
    else table.fromRecord storage record position (index.position? position)

/-- The row that an entry of an index leads to: the one of its number, or of its primary key. -/
def rowBehind (table : Table) (storage : Storage) (index : Index) (record : Record) :
    Outcome Row := do
  let entry := table.rowOfEntry storage.text index record
  let found ← match (if table.hasRowNumbers then none else table.primary?) with
    | none => do
      let number := (← entry table.columns.length).toWhole
      pure ((← storage.row table.root number).map (table.rowOfTable storage.text number))
    | some primary => do
      let key := (primary.parts.take primary.collations.length).filterMap fun
        | .column position => some position
        | _ => none
      let values ← key.mapM entry
      let isFound (row : Row) : Outcome Bool := do
        return (values.zip (← key.mapM row)).all fun (a, b) => a.order .binary b == .eq
      let rows := (storage.entries table.root).map (table.rowOfEntry storage.text primary)
      (rows.filter isFound).head?
  match found with
  | some row => return row
  | none => throw (.storage "an entry of an index leads to no row")

/-- The rows of a table without those of virtual columns, for what is wanted of it. -/
def storedRows (table : Table) (storage : Storage) (demand : Demand) (used : List Nat) :
    Feed Fault Row :=
  let index? := match demand.visit with
    | .rows => if table.hasRowNumbers then none else table.primary?
    | .index position => table.indexes[position]?
  match index? with
  | none =>
    (storage.rows table.root).map fun (number, record) =>
      table.rowOfTable storage.text number record
  | some index =>
    let isTable := index.isPrimary && !table.hasRowNumbers
    let entries := storage.entries (if isTable then table.root else index.root)
    if isTable || table.isCovered used index then
      entries.map (table.rowOfEntry storage.text index)
    else entries.bind fun record => .ofExcept ((table.rowBehind storage index record).map ([·]))

/-- The columns that are computed from others when some are wanted, in all. The fuel bounds how
often one leads to another. -/
def reached (formulas : List (Option Formula)) : Nat → List Nat → List Nat
  | 0, positions => positions
  | fuel + 1, positions =>
    let next := positions.flatMap fun position =>
      match (formulas[position]?).join with
      | some formula => formula.places.map (·.position)
      | none => []
    let new := next.eraseDups.filter fun position => !positions.contains position
    if new = [] then positions else reached formulas fuel (positions ++ new)

/-- Whether a computed column leads back to itself. -/
def isCircular (table : Table) (formulas : List (Option Formula)) (position : Nat) : Bool :=
  match (formulas[position]?).join with
  | some formula =>
    (reached formulas table.columns.length (formula.places.map (·.position))).contains position
  | none => false

/-- The rows of a table. What is wrong with how a column is computed matters where it is wanted. -/
def rows (table : Table) (storage : Storage) (formulas : List (Option (Outcome Formula)))
    (demand : Demand) : Feed Fault Row :=
  let known := formulas.map fun formula => formula.bind (·.toOption)
  let used := reached known table.columns.length demand.positions.eraseDups
  let fault? := used.findSome? fun position =>
    match (formulas[position]?).join with
    | some (Except.error fault) => some fault
    | _ => if table.isCircular known position then some (.circular table.name) else none
  match fault? with
  | some fault => .failed fault
  | none =>
    (table.storedRows storage demand (used.filter (· < table.columns.length))).map fun row =>
      table.computedRow known row (table.columns.length + 1)

/-- The columns as names are looked up in them. -/
def sourceColumns (table : Table) : List SourceColumn :=
  table.columns.map fun column => ⟨column.name, column.affinity, .implied column.collation⟩

/-- The table as names are looked up in it. -/
def shape (table : Table) (name : Option Bytes) : SourceShape where
  name := some (name.getD table.name)
  columns := table.sourceColumns
  hasRowNumbers := table.hasRowNumbers
  rowNumberName := table.rowNumber.bind fun position => table.columns[position]?.map (·.name)
  shared := []

end Table

end ImageAudit.Sql
