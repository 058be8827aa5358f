import ImageAudit.Sql.Function
import ImageAudit.Sql.Selection
import ImageAudit.Sql.TableScan

/-! # Operations on formulas

What operators, tests and functions make of formulas whose names have been looked up.
-/

namespace ImageAudit.Sql

namespace Formula

def ofPlace (place : Place) (column : SourceColumn) : Formula :=
  ⟨column.affinity, column.collation, [place], fun rows => rows.get place⟩

def collated (formula : Formula) (name : Bytes) : Formula := { formula with collation := .stated name }

/-- A formula that takes the value of another one. -/
def ofOne (operand : Formula) (compute : Value → Outcome Value) : Formula where
  affinity := .none
  collation := .ofOperands [operand.collation]
  places := operand.places
  value := fun rows => do compute (← operand.value rows)

/-- The formula without the preferences of a column. -/
def bare (formula : Formula) : Formula := { formula with affinity := .none, collation := .none }

/-- A formula that takes all of some others, but has a value of its own. -/
def ofPlaces (formulas : List Formula) (value : Rows → Outcome Value) : Formula :=
  ⟨.none, .ofOperands (formulas.map (·.collation)), formulas.flatMap (·.places), value⟩

def isNull (isNegated : Bool) (operand : Formula) : Formula :=
  operand.ofOne fun value =>
    .ok (condition isNegated (some (value matches .null)))

def unary (operator : UnaryOperator) (operand : Formula) : Formula :=
  match operator with
  | .plus => { operand with affinity := .none }
  | .minus => operand.ofOne fun value => .ok (negated value)
  | .complement =>
    operand.ofOne fun value =>
      .ok (if value matches .null then .null else .integer (-value.toWhole - 1))
  | .not => operand.ofOne fun value => .ok (condition true value.truth?)
  | .isNull => isNull false operand
  | .notNull => isNull true operand

/-- A test for equality in which nothing is the same as nothing. -/
def sameness (isNegated : Bool) (left right : Formula) : Outcome Formula := do
  let compare ← comparison left right
  return ofPair left right fun a b =>
    let isSame := match compare a b with
      | some order => order == .eq
      | none => (a matches .null) && (b matches .null)
    .ok (condition isNegated (some isSame))

def binary (storage : TextStorage) (operator : BinaryOperator) (left right : Formula) :
    Outcome Formula :=
  let simple (compute : Value → Value → Value) : Outcome Formula :=
    .ok (ofPair left right fun a b => .ok (compute a b))
  match operator with
  | .or => simple fun a b => .ofTruth (either a.truth? b.truth?)
  | .and => simple fun a b => .ofTruth (both a.truth? b.truth?)
  | .isSame => sameness false left right
  | .isNotSame => sameness true left right
  | .bitAnd => simple (bitwise (· &&& ·))
  | .bitOr => simple (bitwise (· ||| ·))
  | .shiftLeft => simple (shift true)
  | .shiftRight => simple (shift false)
  | .add => simple (arithmetic (fun a b => some (a + b)) (· + ·))
  | .subtract => simple (arithmetic (fun a b => some (a - b)) (· - ·))
  | .multiply => simple (arithmetic (fun a b => some (a * b)) (· * ·))
  | .divide => simple quotient
  | .remainder => simple remainder
  | .concat => simple (concat storage)
  | .extract | .extractText =>
    .ok (ofPair left right fun _ _ => .error (.unsupported "extraction"))
  | _ => do
    let compare ← comparison left right
    let test := (BinaryOperator.holds? operator).getD fun _ => false
    return ofPair left right fun a b => .ok (.ofTruth ((compare a b).map test))

/-- A test whether a value lies between two others. -/
def between (isNegated : Bool) (subject low high : Formula) : Outcome Formula := do
  let compareLow ← comparison subject low
  let compareHigh ← comparison subject high
  return ofPlaces [subject, low, high] fun rows => do
    let value ← subject.value rows
    let isAbove := (compareLow value (← low.value rows)).map (· != .lt)
    let isBelow := (compareHigh value (← high.value rows)).map (· != .gt)
    return condition isNegated (both isAbove isBelow)

/-- Whether a value is among others, by how it compares to each. -/
def among (orders : List (Option Ordering)) : Option Bool :=
  if orders.contains (some .eq) then some true
  else if orders.contains none then none
  else some false

/-- A test whether a value is in a list. -/
def inList (isNegated : Bool) (subject : Formula) (items : List Formula) : Outcome Formula := do
  let comparisons ← items.mapM fun item => comparison subject item.bare
  return ofPlaces (subject :: items) fun rows => do
    let value ← subject.value rows
    let values ← items.mapM fun item => item.value rows
    let orders := (comparisons.zip values).map fun (compare, other) => compare value other
    return condition isNegated (among orders)

/-- Whether several values are the same as others, by how they compare. -/
def sameAs (orders : List (Option Ordering)) : Option Bool :=
  orders.foldl (fun same order => both same (order.map (· == .eq))) (some true)

/-- A test whether values are among the rows of a query with as many columns. -/
def inQuery (isNegated : Bool) (subjects : List Formula) (plan : Plan) : Outcome Formula := do
  if plan.columns.length ≠ subjects.length then throw (.misplaced "query of several columns")
  let demand : Demand := .of (List.range subjects.length)
  let compare ← (subjects.zip plan.columns).mapM fun (subject, column) =>
    comparison subject ⟨column.affinity, column.collation, [], fun _ => .ok .null⟩
  return {
    affinity := .none
    collation := .ofOperands (subjects.map (·.collation))
    places := subjects.flatMap (·.places) ++ plan.source.places demand
    value := fun rows => do
      let values ← subjects.mapM fun subject => subject.value rows
      let others ← (← (plan.source.rows demand rows).toList).mapM fun row =>
        row.values subjects.length
      let found := others.map fun other =>
        sameAs ((compare.zip (values.zip other)).map fun (compare, a, b) => compare a b)
      return condition isNegated (found.foldl either (some false)) }

def anyRow (plan : Plan) : Formula where
  affinity := .none
  collation := .none
  places := plan.source.places (.of [])
  value := fun rows => do
    return .ofTruth (some (← (plan.source.rows (.of []) rows).head?).isSome)

/-- The first value of a query of one column. -/
def ofQuery (plan : Plan) : Outcome Formula := do
  let [column] := plan.columns | throw (.misplaced "query of several columns")
  let demand : Demand := .of [0]
  return {
    affinity := column.affinity
    collation := .none
    places := plan.source.places demand
    value := fun rows => do
      match ← (plan.source.rows demand rows).head? with
      | some row => row 0
      | none => return .null }

/-- The value of the first branch whose condition holds. -/
def firstBranch (rows : Rows) (otherwise : Option Formula) :
    List ((Rows → Outcome Bool) × Formula) → Outcome Value
  | [] => match otherwise with
    | some formula => formula.value rows
    | none => .ok .null
  | (holds, value) :: rest => do
    if ← holds rows then value.value rows else firstBranch rows otherwise rest

def choice (subject : Option Formula) (branches : List (Formula × Formula))
    (otherwise : Option Formula) : Outcome Formula := do
  let tests ← branches.mapM fun (condition, value) => do
    match subject with
    | none => return (condition.holds, value)
    | some subject =>
      let compare ← comparison subject condition
      let holds (rows : Rows) : Outcome Bool := do
        return compare (← subject.value rows) (← condition.value rows) == some .eq
      return (holds, value)
  let formulas := subject.toList ++ branches.flatMap (fun (a, b) => [a, b]) ++ otherwise.toList
  return ofPlaces formulas fun rows => firstBranch rows otherwise tests

def call (storage : TextStorage)
    (compute : TextStorage → Collation → List Value → Outcome Value) (arguments : List Formula) :
    Formula :=
  let choice := (arguments.map (·.collation)).find? fun choice => choice != .none
  ofPlaces arguments fun rows => do
    let collation ← CollationChoice.comparing (choice.getD .none) .none
    compute storage collation (← arguments.mapM fun argument => argument.value rows)

end Formula

/-! ## Aggregates -/

structure AggregateCall where
  function : Function
  compute : TextStorage → Collation → List (List Value) → Outcome Value
  arguments : List Formula
  isDistinct : Bool
  filter : Option Formula
  order : List OrderTerm

namespace AggregateCall

/-- The arguments for the rows that count, with the places of these rows. -/
def argumentRows (call : AggregateCall) (group : List Rows) :
    Outcome (List (List Value × Nat)) := do
  let kept ← group.zipIdx.filterM fun (rows, _) => do
    match call.filter with
    | some filter => filter.holds rows
    | none => return true
  let keyed ← kept.mapM fun (rows, place) => do
    let keys ← call.order.mapM fun term => term.value rows
    return (keys, (← call.arguments.mapM fun argument => argument.value rows, place))
  return (sortedBy (call.order.map (·.compare)) keyed).map (·.2)

/-- The collation of the first argument. -/
def collation (call : AggregateCall) : Outcome Collation :=
  CollationChoice.comparing ((call.arguments.head?.map (·.collation)).getD .none) .none

def value (call : AggregateCall) (storage : TextStorage) (group : List Rows) : Outcome Value := do
  let rows := (← call.argumentRows group).map (·.1)
  let collation ← call.collation
  let same (a b : List Value) : Bool :=
    compareAll (a.map fun _ => Value.order collation) a b == .eq
  let rows ← if call.isDistinct then ((Feed.ofList rows).distinctAfter [] same pure).toList
    else pure rows
  call.compute storage collation rows

/-- The row that has the greatest or the least value first. -/
def bestRow (call : AggregateCall) (isBetter : Ordering) (group : List Rows) : Outcome Nat := do
  let collation ← call.collation
  let rows := (← call.argumentRows group).filter fun (values, _) =>
    !((values.headD .null) matches .null)
  let best := rows.foldl (fun best (values, place) =>
    match best with
    | none => some (values.headD .null, place)
    | some (found, _) =>
      if (values.headD .null).order collation found = isBetter then
        some (values.headD .null, place)
      else best) none
  return (best.map (·.2)).getD (group.length - 1)

def aggregate (call : AggregateCall) (storage : TextStorage) : Aggregate where
  places := (call.arguments ++ call.filter.toList).flatMap (·.places) ++
    call.order.flatMap (·.places)
  value := call.value storage
  chosen :=
    match call.function.name with
    | "max" => some (call.bestRow .gt)
    | "min" => some (call.bestRow .lt)
    | _ => none

end AggregateCall

end ImageAudit.Sql
