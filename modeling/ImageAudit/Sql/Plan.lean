import ImageAudit.Sql.Condition
import ImageAudit.Sql.Operation
import ImageAudit.Sql.Recursion

/-! # Plans of queries

Names are looked up and what may not stand where it stands is refused, also where there are no rows.
What comes of it are the formulas and row sources of a query. Views and queries with names are
looked at where they are used. The functions here call one another, with fuel that each call takes
some of; what they look at gets smaller, but for views, which may not lead back to themselves.
-/

namespace ImageAudit.Sql

/-- How deep a query with all that it is made of may be. -/
def maxQueryDepth : Nat := 65536

structure Database where
  catalog : Catalog
  storage : Storage

/-- A step in making formulas, in which the aggregates of a selection are gathered. -/
abbrev Planning := StateT (List Aggregate) Outcome

/-- A result of a selection before its formula is made. -/
inductive ResultTerm where
  | place (place : Place) (column : SourceColumn)
  | expression (value : Expression) (name : Option Bytes)

/-- The functions for a call by name and number of arguments. -/
def functionFor? (permissions : Permissions) (name : Bytes) (count : Nat) :
    Outcome (Option Function) :=
  match Function.named name with
  | [] => if permissions.unknown then .ok none else .error (.functionMissing name)
  | found =>
    match found.find? (·.takes count) with
    | some function => .ok (some function)
    | none => .error (.argumentCount name)

/-- Whether the second argument of a likelihood is a number from zero to one. -/
def isLikelihood (arguments : List Expression) : Bool :=
  match arguments with
  | [_, .literal (.real digits)] =>
    let value := (Numeral.read digits).toFloat
    0 ≤ value && value ≤ 1
  | _ => false

/-- The expression without collations around it, and the outermost of them. -/
def withoutCollation : Expression → Expression × Option Bytes
  | .collate operand name => ((withoutCollation operand).1, some name)
  | expression => (expression, none)

/-- The number that an expression is, if it is written in digits. -/
def positionOf? : Expression → Option Nat
  | .literal (.integer digits) => if isHexNumber digits then none else some (Numeral.natOf digits)
  | _ => none

/-- Whether a selection takes rows from what goes by a name. -/
def Selection.takesFrom (name : Bytes) : Selection → Bool
  | .select _ _ sources _ _ _ _ => sources.any fun
    | .mk (.table found _) _ _ _ _ => sameName found name
    | _ => false
  | .values _ => false

/-- The query without its order, where that does not decide which rows there are. -/
def Query.withoutOrder : Query → Query
  | .mk isRecursive tables first rest _ none offset =>
    .mk isRecursive tables first rest [] none offset
  | query => query

/-- The columns with other names, if there are as many. -/
def renamed (name : Bytes) (names : List Bytes) (columns : List SourceColumn) :
    Outcome (List SourceColumn) :=
  if names = [] then .ok columns
  else if names.length ≠ columns.length then .error (.schema name)
  else .ok ((names.zip columns).map fun (name, column) => { column with name })

/-- The number of values that an expression stands for. -/
def width : Expression → Nat
  | .vector items => items.length
  | _ => 1

/-- Whether the operands of a comparison stand for as many values. -/
def sameWidth (operator : BinaryOperator) (left right : Expression) : Bool :=
  let isComparison := (Formula.BinaryOperator.holds? operator).isSome ||
    operator = .isSame || operator = .isNotSame
  !isComparison || width left = width right

/-- A comparison of as many values on either side, as one of single values. -/
def vectorComparison (operator : BinaryOperator) : List (Expression × Expression) → Expression
  | [] => .literal .null
  | [(left, right)] => .binary operator left right
  | (left, right) :: rest =>
    let others := vectorComparison operator rest
    let here := Expression.binary operator left right
    match operator with
    | .equal | .isSame => .binary .and here others
    | .notEqual | .isNotSame => .binary .or here others
    | .lessEqual => .binary .or (.binary .less left right)
        (.binary .and (.binary .equal left right) others)
    | .greaterEqual => .binary .or (.binary .greater left right)
        (.binary .and (.binary .equal left right) others)
    | .less | .greater => .binary .or here (.binary .and (.binary .equal left right) others)
    | _ => .raise

/-- The rows of two sources that a set operator puts together. -/
def combinedSource (operator : SetOperator) (columns : List SourceColumn) (left right : RowSource) :
    RowSource :=
  let all : Demand := .of (List.range columns.length)
  let demandOf (demand : Demand) : Demand :=
    if operator = .unionAll then .of demand.positions else all
  { places := fun demand => left.places (demandOf demand) ++ right.places (demandOf demand)
    rows := fun demand rows =>
      combined operator columns (left.rows (demandOf demand) rows)
        (right.rows (demandOf demand) rows) }

/-- The plan of selections that set operators put together. -/
def combinedPlan (first : Plan) : List (SetOperator × Plan) → Outcome Plan
  | [] => .ok first
  | (operator, plan) :: rest =>
    if plan.columns.length ≠ first.columns.length then .error (.misplaced "set operator")
    else
      combinedPlan
        { first with source := combinedSource operator first.columns first.source plan.source } rest

/-- The position of the column that a name stands for in an order: of the names of columns the one
that is shown comes before the others. -/
def Plan.labelled? (plan : Plan) (name : Bytes) : Option Nat :=
  let shown := plan.labels.findIdx? fun labels => labels.head?.any (sameName name)
  shown.orElse fun _ => plan.labels.findIdx? fun labels => labels.any (sameName name)

/-- The columns that the terms of an order of a whole query stand for. -/
def orderPositions (plans : List Plan) (order : List (Expression × Direction)) :
    Outcome (List (Nat × (Value → Value → Ordering))) :=
  order.mapM fun (term, direction) => do
    let (base, collation?) := withoutCollation term
    let columns := (plans.head?.map (·.columns)).getD []
    let position? : Option Nat := match base with
      | .name name _ | .qualified _ _ name => plans.findSome? fun plan => plan.labelled? name
      | _ => match positionOf? base with
        | some number => if 1 ≤ number then some (number - 1) else none
        | none => none
    match position?.bind fun position => (columns[position]?).map (position, ·) with
    | none => throw (Fault.misplaced "ORDER BY")
    | some (position, column) =>
      let choice : CollationChoice := match collation? with
        | some name => .stated name
        | none => column.collation
      let collation ← CollationChoice.comparing choice .none
      return (position, OrderTerm.directed direction (Value.order collation))

def orderedSource (source : RowSource) (order : List (Nat × (Value → Value → Ordering))) :
    RowSource :=
  if order.isEmpty then source
  else
    let demandOf (demand : Demand) : Demand :=
      .of (demand.positions ++ order.map (·.1))
    { places := fun demand => source.places (demandOf demand)
      rows := fun demand rows =>
        .ofExcept do
          let found ← (source.rows (demandOf demand) rows).toList
          let keyed ← found.mapM fun row => do
            return (← order.mapM fun (position, _) => row position, row)
          return (sortedBy (order.map (·.2)) keyed).map (·.2) }

def limitedSource (source : RowSource) (limit offset : Option Formula) : RowSource :=
  { source with rows := fun demand rows => limited limit offset (source.rows demand rows) }

/-- The row at hand in a query outside as a source. -/
def currentSource (depth : Nat) : RowSource where
  places := fun demand => demand.positions.map fun position => ⟨depth, 0, position⟩
  rows := fun _ rows => .single fun position => rows.get ⟨depth, 0, position⟩

/-- A source that is known some queries further outside. -/
def shiftedSource (source : RowSource) (depth : Nat) : RowSource where
  places := fun demand =>
    (source.places demand).map fun place => { place with depth := place.depth + depth }
  rows := fun demand rows => source.rows demand (rows.drop depth)

/-- The shape of a query as a source. The collations of its columns must be known. -/
def shapeOf (name : Option Bytes) (columns : List SourceColumn) : Outcome SourceShape := do
  columns.forM fun column => discard (CollationChoice.comparing column.collation .none)
  return ⟨name, columns, false, none, []⟩

/-- The columns of a name in a source and in the first of those before that has it. -/
def sharedColumns (before : List SourceShape) (shape : SourceShape) (name : Bytes) :
    Outcome (Formula × Formula) := do
  let left := before.zipIdx.findSome? fun (found, source) => do
    let position ← found.position? name
    return Formula.ofPlace ⟨0, source, position⟩ (← found.columns[position]?)
  let right := do
    let position ← shape.position? name
    return Formula.ofPlace ⟨0, before.length, position⟩ (← shape.columns[position]?)
  match left, right with
  | some left, some right => return (left, right)
  | _, _ => throw (.columnMissing name)

/-- The formulas that columns of the same name are equal. -/
def sharedConditions (before : List SourceShape) (shape : SourceShape) (shared : List Bytes) :
    Outcome (List Formula) :=
  shared.mapM fun name => do
    let (left, right) ← sharedColumns before shape name
    let compare ← Formula.comparison left right
    return Formula.ofPair left right fun a b => .ok (.ofTruth ((compare a b).map (· == .eq)))

/-- The columns that all results stand for, or those of the sources that go by a name. -/
def starTerms (shapes : List SourceShape) (table : Option Bytes) : Outcome (List ResultTerm) :=
  let found := shapes.zipIdx.filter fun (shape, _) => shape.goesBy table
  if found.isEmpty then .error (.tableMissing (table.getD unnamed))
  else
    .ok (found.flatMap fun (shape, source) =>
      shape.columns.zipIdx.filterMap fun (column, position) =>
        if table.isNone && shape.shared.any (sameName column.name) then none
        else some (.place ⟨0, source, position⟩ column))

/-- The recursive selections at the end of a query that goes by a name: those that follow the same
operator and take rows from it. -/
def recursiveSteps (name : Bytes) (rest : List (SetOperator × Selection)) :
    List (SetOperator × Selection) :=
  match rest.getLast? with
  | some (operator, _) =>
    if operator = .union || operator = .unionAll then
      (rest.reverse.takeWhile fun (found, selection) =>
        found = operator && selection.takesFrom name).reverse
    else []
  | none => []

def columnName (scope : Scope) (table : Option Bytes) (name : Bytes) : Bytes :=
  match scope.meaning? table name with
  | .ok (some (.place _ column)) => column.name
  | _ => unnamed

/-- The name of a result that is not given one. -/
def resultName (scope : Scope) : Expression → Bytes
  | .name name _ => columnName scope none name
  | .qualified _ table name => columnName scope (some table) name
  | _ => unnamed

/-- Whether a name is that of a truth value. -/
def truthOf? (name : Bytes) : Option Bool :=
  if isNamed name "true" then some true else if isNamed name "false" then some false else none

/-- The columns that are looked at with a test for truth, behind `IS`. -/
def truthTest (isNegated truth : Bool) (operand : Formula) : Formula :=
  operand.ofOne fun value =>
    .ok (Formula.condition isNegated (some (value.truth? == some truth)))

def demandThat (isPermitted : Bool) (what : String) : Planning Unit :=
  if isPermitted then return else throw (.misplaced what)

/-- The formula of the next aggregate of a selection. -/
def takeAggregate (scope : Scope) (aggregate : Aggregate) : Planning Formula := do
  let taken ← get
  set (taken ++ [aggregate])
  let source := (scope.levels.head?.map (·.sources.length)).getD 0
  let place : Place := ⟨0, source, taken.length⟩
  return ⟨.none, .none, aggregate.places, fun rows => rows.get place⟩

/-- The result at a position that counts from one. -/
def resultAt (results : List Formula) (number : Nat) (what : String) : Planning Formula :=
  match number with
  | 0 => throw (.misplaced what)
  | index + 1 =>
    match results[index]? with
    | some found => return found
    | none => throw (.misplaced what)

/-- The formula of a term by which rows are put into groups. A number is the position of a
result. -/
def groupTerm (make : Expression → Planning Formula) (results : List Formula)
    (term : Expression) : Planning Formula :=
  match positionOf? term with
  | some number => resultAt results number "GROUP BY"
  | none => make term

/-- The term of an order. A number is the position of a result, and a name is first that of a
result. -/
def orderTerm (make : Expression → Planning Formula) (terms : List ResultTerm)
    (results : List Formula) (term : Expression) (direction : Direction) : Planning OrderTerm := do
  let (base, collation) := withoutCollation term
  let named : Option Nat := match base with
    | .name name _ => terms.findIdx? fun
      | .expression _ (some found) => sameName found name
      | _ => false
    | _ => none
  let found ← match named.map (· + 1) <|> positionOf? base with
    | some number => resultAt results number "ORDER BY"
    | none => make base
  let found := match collation with
    | some name => found.collated name
    | none => found
  OrderTerm.ofFormula found direction

def ResultTerm.column? (level : Level) : ResultTerm → Option (Nat × Option Nat)
  | .place found column => level.placed? found column
  | .expression value _ => level.column? value

def orderColumn? (level : Level) (terms : List ResultTerm) (term : Expression)
    (direction : Direction) (formula : OrderTerm) : Option OrderColumn := do
  let base := term.uncollated
  let named : Option Nat := match base with
    | .name name _ => terms.findIdx? fun
      | .expression _ (some found) => sameName found name
      | _ => false
    | _ => none
  let (_, column) ← match named.map (· + 1) <|> positionOf? base with
    | some number => (terms[number - 1]?).bind (ResultTerm.column? level)
    | none => level.column? base
  if direction.nullsFirst?.any (· == direction.isDescending) then failure
  return ⟨column, formula.collation, direction.isDescending⟩

/-- The columns that all results are, as an order in which the same rows come together. -/
def resultColumns? (level : Level) (terms : List ResultTerm) (formulas : List Formula) :
    Option (List OrderColumn) :=
  (terms.zip formulas).mapM fun (term, formula) => do
    let (_, column) ← term.column? level
    let collation ← (CollationChoice.comparing formula.collation .none).toOption
    return ⟨column, collation, false⟩

/-- The sources, where a row of one is needed if a term would not hold without it. -/
def withNeededRows (level : Level) (terms : List Expression)
    (sources : List (JoinedSource × Option Expression)) :
    List (JoinedSource × Option Expression) :=
  if sources.any fun (source, _) => source.keepsRight then sources
  else
    (List.range sources.length).foldl (fun sources index =>
      let needed := sources.filterMap fun (source, on) => if source.keepsLeft then none else on
      let all := terms ++ needed.flatMap Expression.terms
      if all.any (level.rejectsMissing index) then
        sources.modify index fun (source, on) => ({ source with keepsLeft := false }, on)
      else sources) sources

/-- What the terms of a condition and those of the sources mean for the choice of the visits. -/
def choiceTerms (level : Level) (make : Expression → Outcome Formula)
    (conditions : List (Expression × Formula))
    (sources : List (JoinedSource × List (Expression × Formula))) : List Condition :=
  let isKept (source : Nat) : Bool :=
    sources[source]?.all fun (source, _) => !source.keepsLeft && !source.keepsRight
  let site (position : Nat) : TermSite := ⟨position, level, [], isKept, make⟩
  let siteAt (index position : Nat) : TermSite :=
    if isKept index then site position
    else ⟨position, level, List.range index, (· = index), make⟩
  let own := conditions.map fun (term, formula) (position : Nat) =>
    (site position).condition term formula
  let joined := sources.zipIdx.flatMap fun ((source, on), index) =>
    let before := level.sources.take index
    let shared := source.shape.shared.filterMap fun name =>
      (sharedColumns before source.shape name).toOption.map fun (left, right) (position : Nat) =>
        (siteAt index position).sharing left right
    shared ++ on.map fun (term, formula) (position : Nat) =>
      (siteAt index position).condition term formula
  (own ++ joined).zipIdx.map fun (make, position) => make position

/-- Whether a formula only looks at sources up to a position. -/
def isKnownAt (index : Nat) (formula : Formula) : Bool :=
  formula.places.all fun place => place.depth ≠ 0 || place.source ≤ index

/-- The names of a result in an order: the one that is shown, and that of the column that it is. -/
def resultLabels (scope : Scope) (column : SourceColumn) : ResultTerm → List Bytes
  | .place _ _ => [column.name]
  | .expression value _ => [column.name, resultName scope value]

/-- The scope in which names are bound to queries, which can name what is in a scope. -/
def Scope.bindAll (scope within : Scope) (tables : List CommonTable) : Scope :=
  tables.foldl (fun bound table =>
    match table with
    | .mk name _ _ => bound.bind name (.query table within)) scope

/-- The scope with names for queries, which can name one another. -/
def Scope.withTables (scope : Scope) (tables : List CommonTable) : Scope :=
  tables.foldl (fun within _ => scope.bindAll within tables) scope

mutual

def formula (db : Database) : Nat → Scope → Expression → Planning Formula
  | 0, _, _ => throw .tooLong
  | fuel + 1, scope, expression => do
    let make := formula db fuel scope
    match expression with
    | .literal .currentTime =>
      demandThat scope.permissions.changing "the current time"
      return Formula.ofPlaces [] fun _ => Literal.currentTime.value
    | .literal value =>
      match value.value with
      | .ok value => return .constant value
      | .error fault =>
        demandThat scope.permissions.unknown "literal"
        return Formula.ofPlaces [] fun _ => .error fault
    | .name name isDoubleQuoted => named db fuel scope none name isDoubleQuoted
    | .qualified file table name =>
      demandThat scope.permissions.dots "the \".\" operator"
      if file.any fun file => !isNamed file "main" then throw (.columnMissing name)
      named db fuel scope (some table) name false
    | .variable =>
      demandThat scope.permissions.parameters "parameters"
      return .constant .null
    | .unary .minus (.literal (.integer digits)) | .unary .minus (.literal (.real digits)) =>
      return .constant (← numberValue true digits)
    | .unary operator operand => return (← make operand).unary operator
    | .binary operator left (.name name false) =>
      demandThat (sameWidth operator left (.name name false)) "row value"
      let left ← make left
      match operator, truthOf? name, ← scope.meaning? none name with
      | .isSame, some truth, none => return truthTest false truth left
      | .isNotSame, some truth, none => return truthTest true truth left
      | _, _, _ => left.binary db.storage.text operator (← make (.name name false))
    | .binary operator (.vector left) (.vector right) =>
      demandThat (left.length = right.length) "row value"
      make (vectorComparison operator (left.zip right))
    | .binary operator left right =>
      demandThat (sameWidth operator left right) "row value"
      (← make left).binary db.storage.text operator (← make right)
    | .collate operand name => return (← make operand).collated name
    | .cast operand type =>
      let affinity := Affinity.ofType type
      let operand ← make operand
      return {
        operand.ofOne fun value => .ok (value.cast db.storage.text affinity) with
        affinity := affinity
        collation := operand.collation }
    | .call function arguments => called db fuel scope function arguments
    | .pattern kind isNegated subject pattern escape =>
      let operands ← (pattern :: subject :: escape.toList).mapM make
      let name := match kind with
        | .like => "like"
        | .glob => "glob"
        | .regexp => "regexp"
        | .matches => "match"
      let function? ← functionFor? scope.permissions (Bytes.ofText name) operands.length
      let found := match function? with
        | some ⟨_, _, _, _, .scalar compute⟩ => Formula.call db.storage.text compute operands
        | _ => Formula.ofPlaces operands fun _ => .error (.functionMissing (Bytes.ofText name))
      return if isNegated then found.unary .not else found
    | .between isNegated subject low high =>
      Formula.between isNegated (← make subject) (← make low) (← make high)
    | .inList isNegated subject items =>
      Formula.inList isNegated (← make subject) (← items.mapM make)
    | .inQuery isNegated subject query =>
      demandThat scope.permissions.queries "subqueries"
      let subjects := match subject with
        | .vector items => items
        | _ => [subject]
      Formula.inQuery isNegated (← subjects.mapM make) (← plan db fuel scope query)
    | .inTable isNegated subject source =>
      demandThat scope.permissions.queries "subqueries"
      let selection := Selection.select false [.all] [source] none [] none []
      Formula.inQuery isNegated [← make subject] (← selectionPlan db fuel scope selection [])
    | .exists query =>
      demandThat scope.permissions.queries "subqueries"
      return Formula.anyRow (← plan db fuel scope query)
    | .scalar query =>
      demandThat scope.permissions.queries "subqueries"
      Formula.ofQuery (← plan db fuel scope query)
    | .vector items =>
      demandThat scope.permissions.unknown "row value"
      return Formula.ofPlaces (← items.mapM make) fun _ => .error (.misplaced "row value")
    | .choice subject branches otherwise =>
      let branches ← branches.mapM fun (condition, value) => do
        return (← make condition, ← make value)
      Formula.choice (← subject.mapM make) branches (← otherwise.mapM make)
    | .raise =>
      demandThat scope.permissions.unknown "RAISE()"
      return Formula.ofPlaces [] fun _ => .error (.misplaced "RAISE()")

def named (db : Database) : Nat → Scope → Option Bytes → Bytes → Bool → Planning Formula
  | 0, _, _, _, _ => throw .tooLong
  | fuel + 1, scope, table, name, isDoubleQuoted => do
    match ← scope.meaning? table name with
    | some (.place place column) => return .ofPlace place column
    | some (.result 0 value) =>
      match scope.levels with
      | level :: outside =>
        formula db fuel (scope.withLevels (⟨level.sources, []⟩ :: outside)) value
      | [] => throw (.columnMissing name)
    | some (.result _ _) => throw (.unsupported "result of a query outside")
    | none =>
      if table.isNone && isDoubleQuoted then return .constant (.text name)
      match table, truthOf? name with
      | none, some truth => return .constant (.ofTruth (some truth))
      | _, _ => throw (.columnMissing name)

def called (db : Database) : Nat → Scope → Bytes → Arguments → Planning Formula
  | 0, _, _, _ => throw .tooLong
  | fuel + 1, scope, name, .mk isDistinct _ items order filter window => do
    let within := scope.permitting fun permissions => { permissions with aggregates := false }
    match ← functionFor? scope.permissions name items.length with
    | none =>
      let arguments ← items.mapM (formula db fuel scope)
      return Formula.ofPlaces arguments fun _ => .error (.functionMissing name)
    | some function =>
      if window.isSome then throw (.unsupported "windows")
      if function.isAggregate then
        demandThat scope.permissions.aggregates "aggregate"
        let arguments ← items.mapM (formula db fuel within)
        let filter ← filter.mapM (formula db fuel within)
        let order ← order.mapM fun (term, direction) => do
          OrderTerm.ofFormula (← formula db fuel within term) direction
        match function.kind with
        | .aggregate compute =>
          if isDistinct && arguments.length ≠ 1 then throw (.misplaced "DISTINCT")
          let call : AggregateCall := ⟨function, compute, arguments, isDistinct, filter, order⟩
          takeAggregate scope (call.aggregate db.storage.text)
        | _ => throw (.unsupported "aggregate")
      else
        demandThat (filter.isNone && order.isEmpty) "scalar function"
        demandThat (scope.permissions.changing || function.isDeterministic)
          "non-deterministic functions"
        if function.name = "likelihood" && !isLikelihood items then
          throw (.misplaced "likelihood()")
        let arguments ← items.mapM (formula db fuel scope)
        match function.kind with
        | .scalar compute => return Formula.call db.storage.text compute arguments
        | _ => return Formula.ofPlaces arguments fun _ => .error (.unsupported "function")

def plan (db : Database) : Nat → Scope → Query → Outcome Plan
  | 0, _, _ => throw .tooLong
  | fuel + 1, outer, .mk _ tables first rest order limit offset => do
    let scope := outer.withTables tables
    let count? (term : Option Expression) : Outcome (Option Formula) :=
      term.mapM fun term => (formula db fuel Scope.outermost term).run' []
    let limit ← count? limit
    let offset ← count? offset
    if rest.isEmpty then
      let found ← selectionPlan db fuel scope first order
      return { found with source := limitedSource found.source limit offset }
    else
      let firstPlan ← selectionPlan db fuel scope first []
      let restPlans ← rest.mapM fun (operator, selection) => do
        return (operator, ← selectionPlan db fuel scope selection [])
      let found ← combinedPlan firstPlan restPlans
      let terms ← orderPositions (firstPlan :: restPlans.map (·.2)) order
      return { found with
        source := limitedSource (orderedSource found.source terms) limit offset }

/-- The plan of a selection whose rows come in an order. -/
def selectionPlan (db : Database) : Nat → Scope → Selection → List (Expression × Direction) →
    Outcome Plan
  | 0, _, _, _ => throw .tooLong
  | fuel + 1, scope, .values rows, _ => do
    let inner := scope.push ⟨[], []⟩
    let width := (rows.head?.map List.length).getD 0
    if rows.any fun row => row.length ≠ width then throw (.misplaced "VALUES")
    let plans ← rows.mapM fun row => do
      let results ← (row.mapM (formula db fuel inner)).run' []
      let parts : SelectionParts := ⟨[], [], results, false, false, [], none, [], [], [], none⟩
      let columns := results.zipIdx.map fun (result, position) =>
        ⟨Bytes.ofText s!"column{position + 1}", result.affinity, result.collation⟩
      let plan : Plan := ⟨columns, columns.map fun column => [column.name], false, parts.source⟩
      return (SetOperator.unionAll, plan)
    match plans with
    | [] => throw (.misplaced "VALUES")
    | (_, first) :: rest => combinedPlan first rest
  | fuel + 1, scope, .select isDistinct results sources condition group having _, order => do
    let isAlone := sources.length ≤ 1 && order.isEmpty
    let found ← joinedSources db fuel scope isAlone [] sources
    let shapes := found.map fun (source, _) => source.shape
    let inner := scope.push ⟨shapes, []⟩
    let level : Level := ⟨shapes, results.filterMap fun
      | .expression value (some name) => some (name, value)
      | _ => none⟩
    let outer := scope.push level
    let withAggregates (scope : Scope) : Scope :=
      scope.permitting fun permissions => { permissions with aggregates := true }
    let without (scope : Scope) : Scope :=
      scope.permitting fun permissions => { permissions with aggregates := false }
    let terms ← results.flatMapM fun
      | .all => starTerms shapes none
      | .allOf table => starTerms shapes (some table)
      | .expression value name => .ok [.expression value name]
    let conditionTerms := condition.toList.flatMap Expression.terms
    let found := withNeededRows level conditionTerms found
    let make : Planning (List (SourceColumn × Formula) × SelectionParts) := do
      let columns ← terms.mapM fun term => do
        match term with
        | .place place column => return (column, Formula.ofPlace place column)
        | .expression value name =>
          let result ← formula db fuel (withAggregates inner) value
          let name := name.getD (resultName inner value)
          return ((⟨name, result.affinity, result.collation⟩ : SourceColumn), result)
      let formulas := columns.map (·.2)
      let hasGroups := !group.isEmpty || !(← get).isEmpty
      if having.isSome && !hasGroups then throw (.misplaced "HAVING")
      let joined ← found.mapM fun (source, on) => do
        let terms := on.toList.flatMap Expression.terms
        let formulas ← terms.mapM fun term => do
          return (term, ← formula db fuel (without inner) term)
        return (source, formulas)
      let conditions ← conditionTerms.mapM fun term => do
        return (term, ← formula db fuel (without outer) term)
      let sites (make : Expression → Outcome Formula) := choiceTerms level make conditions joined
      let choices := sites fun value => (formula db fuel (without outer) value).run' []
      let settled : List (JoinedSource × List Formula) :=
        joined.zipIdx.map fun ((source, on), index) =>
          let (now, later) := (on.map Prod.snd).partition (isKnownAt index)
          ({ source with conditions := source.conditions ++ now }, later)
      let conditions := settled.flatMap Prod.snd ++ conditions.map Prod.snd
      let joined := settled.map Prod.fst
      let group ← group.mapM (groupTerm (formula db fuel (without outer)) formulas)
      let having ← having.mapM (formula db fuel (withAggregates outer))
      let orderTerms ← order.mapM fun (term, direction) =>
        orderTerm (formula db fuel (withAggregates outer)) terms formulas term direction
      let aggregates ← get
      let isGrouped := !group.isEmpty || !aggregates.isEmpty
      let directions := order.map fun (_, direction) => direction.isDescending
      let isParallel := directions.length = group.length
      let group := group.zipIdx.map fun (term, index) =>
        (term, isParallel && directions.getD index false)
      let orderColumns := (order.zip orderTerms).mapM fun ((term, direction), formula) =>
        orderColumn? level terms term direction formula
      let wanted : Option WantedOrder :=
        if isGrouped then none
        else if !order.isEmpty then orderColumns.map (⟨·, false, isDistinct, terms.length⟩)
        else if isDistinct then
          (resultColumns? level terms formulas).map (⟨·, true, true, terms.length⟩)
        else none
      return (columns,
        ⟨joined, conditions, formulas, isDistinct, isGrouped, group, having, aggregates,
          orderTerms, choices, wanted⟩)
    let ((columns, parts), _) ← make.run []
    let labels := (columns.zip terms).map fun ((column, _), term) => resultLabels inner column term
    return ⟨columns.map (·.1), labels, parts.isGrouped, parts.source⟩

/-- The sources of a selection behind those before, each with what must hold for the rows to be put
together. -/
def joinedSources (db : Database) : Nat → Scope → Bool → List SourceShape → List Source →
    Outcome (List (JoinedSource × Option Expression))
  | 0, _, _, _, _ => throw .tooLong
  | _, _, _, _, [] => return []
  | fuel + 1, scope, isAlone, before, .mk item givenName join on shared :: rest => do
    let here ← match item with
      | .group sources =>
        if givenName.isSome || join.keepsLeft || join.keepsRight || !shared.isEmpty || join.isNatural then
          throw (.unsupported "join of a group")
        let inside ← joinedSources db fuel scope false before sources
        match inside.reverse with
        | [] => pure []
        | (last, condition) :: others =>
          let conditions := condition.toList ++ on.toList
          let condition := conditions.tail.foldl (fun all more => some (.binary .and (all.getD more)
            more)) conditions.head?
          pure (((last, condition) :: others).reverse)
      | _ => do
        let (shape, source, table) ← sourceRows db fuel scope isAlone item givenName
        let shared :=
          if join.isNatural then
            (shape.columns.map (·.name)).filter fun name =>
              before.any fun found => (found.position? name).isSome
          else shared
        if join.keepsRight && !shared.isEmpty then
          throw (.unsupported "join that keeps all rows")
        let conditions ← sharedConditions before shape shared
        let shape := { shape with shared }
        let joined : JoinedSource :=
          ⟨shape, source, table, join.keepsLeft, join.keepsRight, join.isCross, conditions⟩
        pure [(joined, on)]
    let shapes := here.map fun (source, _) => source.shape
    return here ++ (← joinedSources db fuel scope isAlone (before ++ shapes) rest)

def sourceRows (db : Database) : Nat → Scope → Bool → SourceItem → Option Bytes →
    Outcome (SourceShape × RowSource × Option Table)
  | 0, _, _, _, _ => throw .tooLong
  | fuel + 1, scope, isAlone, item, givenName => do
    let settled (query : Query) : Query := if isAlone then query else query.withoutOrder
    match item with
    | .group _ => throw (.unsupported "group of sources")
    | .function _ _ => throw (.unsupported "function with rows")
    | .query query =>
      let found ← plan db fuel scope (settled query)
      return (← shapeOf givenName found.columns, found.source, none)
    | .table name hint =>
      let shown := some (givenName.getD name)
      if let .named index := hint then
        throw (if (db.catalog.index? index).isNone then .tableMissing index
          else .unsupported "index that is named")
      match scope.binding? name with
      | some .pending => throw (.circular name)
      | some (.current columns level) =>
        return (← shapeOf shown columns, currentSource (scope.levels.length - 1 - level), none)
      | some (.query table outer) =>
        let found ← commonPlan db fuel outer table
        let depth := scope.levels.length - outer.levels.length
        return (← shapeOf shown found.columns, shiftedSource found.source depth, none)
      | none =>
        let name := if isNamed name "sqlite_schema" then Bytes.ofText "sqlite_master" else name
        match db.catalog.find? name with
        | none => throw (.tableMissing name)
        | some (.virtualTable _) => throw (.unsupported "virtual table")
        | some (.view view definition) =>
          if scope.views.any (sameName view) then throw (.circular view)
          let found ← plan db fuel (scope.ofView view) (settled definition.query)
          let columns ← renamed view definition.columns found.columns
          return (← shapeOf shown columns, shiftedSource found.source scope.levels.length, none)
        | some (.table table) =>
          let inner := Scope.outermost.push ⟨[table.shape none], []⟩
          let formulas := table.columns.map fun column =>
            match column.computation with
            | some ⟨value, false⟩ => some ((formula db fuel inner value).run' [])
            | _ => none
          let source : RowSource :=
            ⟨fun _ => [], fun demand _ => table.rows db.storage formulas demand⟩
          let isPlain := hint = .none && table.hasRowNumbers
          let table := if isPlain then { table with indexes := [] } else table
          return (table.shape shown, source, some table)

/-- The plan of a query with a name, which may be recursive. -/
def commonPlan (db : Database) : Nat → Scope → CommonTable → Outcome Plan
  | 0, _, _ => throw .tooLong
  | fuel + 1, scope, .mk name names query => do
    let .mk isRecursive tables first rest order limit offset := query
    let steps := recursiveSteps name rest
    let pending := scope.bind name .pending
    if steps.isEmpty then
      let found ← plan db fuel pending query
      return { found with columns := ← renamed name names found.columns }
    let start := Query.mk isRecursive tables first (rest.take (rest.length - steps.length)) []
      none none
    let startPlan ← plan db fuel pending start
    let columns ← renamed name names startPlan.columns
    let inner := (scope.bind name (.current columns scope.levels.length)).push ⟨[], []⟩
    let stepPlans ← steps.mapM fun (_, selection) => do
      let query := Query.mk isRecursive tables selection [] [] none none
      plan db fuel inner query
    if stepPlans.any fun found => found.columns.length ≠ columns.length || found.isGrouped then
      throw (.misplaced "recursion")
    let terms ← orderPositions (startPlan :: stepPlans) order
    let parts : RecursionParts := {
      columns
      start := startPlan.source
      steps := stepPlans.map (·.source)
      isDistinct := steps.any fun (operator, _) => operator = .union
      order := terms }
    let count? (term : Option Expression) : Outcome (Option Formula) :=
      term.mapM fun term => (formula db fuel Scope.outermost term).run' []
    let limit ← count? limit
    let offset ← count? offset
    return { startPlan with columns, source := limitedSource parts.source limit offset }

end

end ImageAudit.Sql
