import ImageAudit.Sql.Expression
import ImageAudit.Sql.Fault
import ImageAudit.Sql.Value

/-! # Formulas

A formula is an expression in which every name has been looked up: a computation of a value from the
rows at hand. Rows are at hand for each query that the formula stands in, the innermost first, and
in each for its sources. A value of a row is computed when it is asked for.
-/

namespace ImageAudit.Sql

/-- A row: the value at each position. -/
abbrev Row := Nat → Outcome Value

/-- The rows at hand: for each query those of its sources. -/
abbrev Rows := List (List Row)

/-- Where a value is found: how many queries outside, in the row of which source, and at which
position there. -/
structure Place where
  depth : Nat
  source : Nat
  position : Nat
  deriving DecidableEq, Repr

/-- Which collation a formula asks for in a comparison. -/
inductive CollationChoice where
  | none
  /-- That of a column. -/
  | implied (name : Bytes)
  /-- One that the expression names. -/
  | stated (name : Bytes)
  deriving DecidableEq, Repr

structure Formula where
  affinity : Affinity
  collation : CollationChoice
  /-- The places that the value is made from. -/
  places : List Place
  value : Rows → Outcome Value

namespace Rows

def get (rows : Rows) (place : Place) : Outcome Value :=
  match (rows[place.depth]?).bind (·[place.source]?) with
  | some row => row place.position
  | none => .ok .null

end Rows

namespace Row

def ofValues (values : List Value) : Row := fun position => .ok (values.getD position .null)

/-- The row in which nothing has a value. -/
def empty : Row := fun _ => .ok .null

end Row

namespace CollationChoice

/-- The choice of an expression with some operands. -/
def ofOperands (choices : List CollationChoice) : CollationChoice :=
  (choices.find? fun choice => choice matches stated _).getD none

def comparing (left right : CollationChoice) : Outcome Collation :=
  let name := match left, right with
    | stated name, _ => some name
    | _, stated name => some name
    | implied name, _ => some name
    | none, implied name => some name
    | none, none => Option.none
  match name with
  | Option.none => .ok .binary
  | some name =>
    match Collation.ofName? name with
    | some collation => .ok collation
    | Option.none => .error (.collationMissing name)

end CollationChoice

namespace Formula

def constant (value : Value) : Formula := ⟨.none, .none, [], fun _ => .ok value⟩

def ofPair (left right : Formula) (compute : Value → Value → Outcome Value) : Formula where
  affinity := .none
  collation := .ofOperands [left.collation, right.collation]
  places := left.places ++ right.places
  value := fun rows => do compute (← left.value rows) (← right.value rows)

/-! ## Comparisons -/

def commonAffinity (left right : Affinity) : Affinity :=
  match left, right with
  | .none, other | other, .none => other
  | _, _ => if left.isNumeric || right.isNumeric then .numeric else .blob

/-- Two values as they are compared under an affinity. -/
def asCompared (affinity : Affinity) (left right : Value) : Value × Value :=
  let isText : Value → Bool
    | .text _ => true
    | _ => false
  if affinity.isNumeric then
    let numeric (value : Value) : Value :=
      if isText value then value.withAffinity .numeric else value
    (numeric left, numeric right)
  else if affinity = .text && (isText left || isText right) then
    (left.withAffinity .text, right.withAffinity .text)
  else (left, right)

/-- How the values of two formulas are compared; none where one has no value. -/
def comparison (left right : Formula) : Outcome (Value → Value → Option Ordering) := do
  let affinity := commonAffinity left.affinity right.affinity
  let collation ← CollationChoice.comparing left.collation right.collation
  return fun a b =>
    if a matches .null || b matches .null then none
    else
      let (a, b) := asCompared affinity a b
      some (a.order collation b)

def ordering (formula : Formula) : Outcome (Value → Value → Ordering) := do
  return Value.order (← CollationChoice.comparing formula.collation .none)

/-- Whether an operator holds for the order of its operands. -/
def BinaryOperator.holds? (operator : BinaryOperator) : Option (Ordering → Bool) :=
  match operator with
  | .equal => some (· == .eq)
  | .notEqual => some (· != .eq)
  | .less => some (· == .lt)
  | .lessEqual => some (· != .gt)
  | .greater => some (· == .gt)
  | .greaterEqual => some (· != .lt)
  | _ => none

/-! ## Arithmetic -/

/-- A real number as a value; what is no number is nothing. -/
def ofFloat (value : Float) : Value := if value.isNaN then .null else .real value

/-- The value of an operation on two numbers: exact on whole numbers if it has a result of 64 bits,
else on real numbers. -/
def arithmetic (whole : Int → Int → Option Int) (real : Float → Float → Float)
    (left right : Value) : Value :=
  match left.number?, right.number? with
  | some a, some b =>
    let fallback := ofFloat (real a.toReal b.toReal)
    match a, b with
    | .integer x, .integer y =>
      match whole x y with
      | some result => if inWholeRange result then .integer result else fallback
      | none => fallback
    | _, _ => fallback
  | _, _ => .null

/-- A quotient, towards zero; nothing where it is divided by zero. -/
def quotient (left right : Value) : Value :=
  match right.number? with
  | none => .null
  | some divisor =>
    if divisor.toReal == 0 then .null
    else arithmetic (fun a b => some (Int.tdiv a b)) (· / ·) left right

/-- The remainder of a division of whole numbers; nothing where it is divided by zero. -/
def remainder (left right : Value) : Value :=
  match left.number?, right.number? with
  | some a, some b =>
    let divisor := b.toWhole
    if divisor = 0 then .null
    else
      let rest := Int.tmod a.toWhole divisor
      match a, b with
      | .integer _, .integer _ => .integer rest
      | _, _ => .real (Real.ofInt rest)
  | _, _ => .null

/-- An operation on the 64 bits of whole numbers. -/
def bitwise (compute : Int64 → Int64 → Int64) (left right : Value) : Value :=
  match left, right with
  | .null, _ | _, .null => .null
  | _, _ => .integer (compute (.ofInt left.toWhole) (.ofInt right.toWhole)).toInt

/-- A number shifted to the left, or to the right by a negative count. -/
def shifted (value count : Int) : Int :=
  if 0 ≤ count then
    if 64 ≤ count then 0 else Int.bmod (value * Nat.pow 2 count.toNat) 0x10000000000000000
  else if count ≤ -64 then if value < 0 then -1 else 0
  else Int.fdiv value (Nat.pow 2 (-count).toNat)

def shift (isLeft : Bool) (left right : Value) : Value :=
  match left, right with
  | .null, _ | _, .null => .null
  | _, _ =>
    let count := right.toWhole
    .integer (shifted left.toWhole (if isLeft then count else -count))

def concat (storage : TextStorage) (left right : Value) : Value :=
  match left.textBytes? storage, right.textBytes? storage with
  | some a, some b => .text (a ++ b)
  | _, _ => .null

def negated (value : Value) : Value := arithmetic (fun a b => some (a - b)) (· - ·) (.integer 0) value

/-! ## Conditions -/

def both : Option Bool → Option Bool → Option Bool
  | some false, _ | _, some false => some false
  | some true, some true => some true
  | _, _ => none

def either : Option Bool → Option Bool → Option Bool
  | some true, _ | _, some true => some true
  | some false, some false => some false
  | _, _ => none

/-- The value of a condition that may be negated. -/
def condition (isNegated : Bool) (holds : Option Bool) : Value :=
  .ofTruth (holds.map fun holds => holds != isNegated)

def holds (formula : Formula) (rows : Rows) : Outcome Bool := do
  return (← formula.value rows).truth? == some true

end Formula

end ImageAudit.Sql
