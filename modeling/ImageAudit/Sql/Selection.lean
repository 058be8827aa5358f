import ImageAudit.Sql.Function
import ImageAudit.Sql.Itinerary
import ImageAudit.Sql.Scope

/-! # Rows of selections

The sources are visited one inside the other. The rows are put together, those are kept for which
the conditions hold, and results are computed from them. Where rows are grouped, a group takes the place of a row: aggregates have
values, and other names stand for one row of the group. The rest of the work is the same for all
queries: rows that occur twice, order, set operators and limits.
-/

namespace ImageAudit.Sql

/-! ## Order -/

/-- How the values of a term of an order are compared. -/
structure OrderTerm where
  value : Rows → Outcome Value
  places : List Place
  collation : Collation
  compare : Value → Value → Ordering

namespace OrderTerm

/-- The order of two values in a direction. -/
def directed (direction : Direction) (compare : Value → Value → Ordering) (a b : Value) :
    Ordering :=
  let found := if direction.isDescending then (compare a b).swap else compare a b
  let isNull (value : Value) : Bool := value matches .null
  match direction.nullsFirst?, isNull a, isNull b with
  | some isFirst, true, false => if isFirst then .lt else .gt
  | some isFirst, false, true => if isFirst then .gt else .lt
  | _, _, _ => found

def ofFormula (formula : Formula) (direction : Direction) : Outcome OrderTerm := do
  let collation ← CollationChoice.comparing formula.collation .none
  return ⟨formula.value, formula.places, collation, directed direction (Value.order collation)⟩

end OrderTerm

def compareAll : List (Value → Value → Ordering) → List Value → List Value → Ordering
  | compare :: more, a :: as, b :: bs => (compare a b).then (compareAll more as bs)
  | _, _, _ => .eq

/-- The items in the order of the values that belong to them; those with the same values stay in
their order. -/
def sortedBy (compare : List (Value → Value → Ordering)) (items : List (List Value × α)) :
    List (List Value × α) :=
  items.mergeSort fun a b => compareAll compare a.1 b.1 != .gt

def runs (compare : List (Value → Value → Ordering)) (items : List (List Value × α)) :
    List (List α) :=
  (items.splitBy fun a b => compareAll compare a.1 b.1 == .eq).map fun run => run.map (·.2)

/-! ## Limits -/

def countOf (value : Value) : Outcome Int :=
  match value.withAffinity .numeric with
  | .integer count => .ok count
  | _ => .error (.value "datatype mismatch")

/-- The rows within a limit. A negative limit is none. -/
def limited (limit offset : Option Formula) (feed : Feed Fault α) : Feed Fault α :=
  let counts : Outcome (Option Int × Option Int) := do
    let count? (formula : Option Formula) : Outcome (Option Int) :=
      formula.mapM fun formula => do countOf (← formula.value [])
    return (← count? limit, ← count? offset)
  match counts with
  | .error fault => .failed fault
  | .ok (limit, offset) =>
    let rest := feed.drop (offset.getD 0).toNat
    match limit with
    | some limit => if limit < 0 then rest else if limit = 0 then .done else rest.take limit.toNat
    | none => rest

/-! ## Set operators -/

/-- The values of a row at the first positions. -/
def Row.values (row : Row) (count : Nat) : Outcome (List Value) := (List.range count).mapM row

def rowOrder (columns : List SourceColumn) : Outcome (List (Value → Value → Ordering)) :=
  columns.mapM fun column =>
    return Value.order (← CollationChoice.comparing column.collation .none)

def distinctRows (compare : List (Value → Value → Ordering)) (rows : List (List Value)) :
    List (List Value) :=
  (runs compare (sortedBy compare (rows.map fun row => (row, row)))).filterMap List.head?

/-- The rows that a set operator makes of those to its left and its right. -/
def combined (operator : SetOperator) (columns : List SourceColumn) (left right : Feed Fault Row) :
    Feed Fault Row :=
  match operator with
  | .unionAll => left.append fun _ => right
  | _ =>
    .ofExcept do
      let compare ← rowOrder columns
      let values (feed : Feed Fault Row) : Outcome (List (List Value)) := do
        (← feed.toList).mapM (·.values columns.length)
      let left ← values left
      let right ← values right
      let isRight (row : List Value) : Bool :=
        right.any fun other => compareAll compare row other == .eq
      let rows := match operator with
        | .except => (distinctRows compare left).filter fun row => !isRight row
        | .intersect => (distinctRows compare left).filter isRight
        | _ => distinctRows compare (left ++ right)
      return rows.map Row.ofValues

/-! ## Joins -/

structure JoinedSource where
  shape : SourceShape
  source : RowSource
  /-- The table, if the rows are those of one. -/
  table : Option Table
  /-- Whether a row to the left stays where there is none here. -/
  keepsLeft : Bool
  /-- Whether a row here stays where there is none to the left. -/
  keepsRight : Bool
  /-- Whether it is visited behind those before. -/
  isCross : Bool
  /-- What must hold for the rows to be put together. -/
  conditions : List Formula

def allHold (conditions : List Formula) (rows : Rows) : Outcome Bool :=
  conditions.foldlM (fun holds condition => if holds then condition.holds rows else return false)
    true

def reversed (feed : Feed Fault α) : Feed Fault α := .ofExcept (feed.toList.map List.reverse)

structure JoinStep where
  source : JoinedSource
  /-- The position of the source. -/
  index : Nat
  demand : Demand
  isReversed : Bool
  /-- What must hold for a row to match. -/
  matching : List Formula
  /-- What must hold then for the rows to be kept. -/
  filters : List Formula

namespace JoinStep

def rows (step : JoinStep) (outside : Rows) : Feed Fault Row :=
  let rows := step.source.source.rows step.demand outside
  if step.isReversed then reversed rows else rows

/-- The rows with one of the source among them. -/
def extend (step : JoinStep) (outside : Rows) (before : List Row) : Feed Fault (List Row) :=
  let extended := ((step.rows outside).map fun row => before.set step.index row).filter fun rows =>
    allHold step.matching (rows :: outside)
  let extended :=
    if step.source.keepsLeft then extended.orElse fun _ => .single before else extended
  if step.filters.isEmpty then extended
  else extended.filter fun rows => allHold step.filters (rows :: outside)

/-- The rows of the source that stay where there is none of the rows before. -/
def unmatched (step : JoinStep) (outside : Rows) (empty : List Row) (before : List (List Row)) :
    Feed Fault (List Row) :=
  let isAlone (row : Row) : Outcome Bool :=
    before.foldlM (fun isAlone rows => do
      if !isAlone then return false
      return !(← allHold step.matching (rows.set step.index row :: outside))) true
  ((step.rows outside).filter isAlone).map fun row => empty.set step.index row

/-- The rows of the source joined to those before. -/
def join (step : JoinStep) (outside : Rows) (empty : List Row) (before : Feed Fault (List Row)) :
    Feed Fault (List Row) :=
  if step.source.keepsRight then
    match before.toList with
    | .error fault => .failed fault
    | .ok rows =>
      ((Feed.ofList rows).bind (step.extend outside)).append fun _ =>
        step.unmatched outside empty rows
  else before.bind (step.extend outside)

end JoinStep

/-- Whether all that a formula looks at is known when some sources are visited. -/
def isKnownWith (visited : List Nat) (formula : Formula) : Bool :=
  formula.places.all fun place => place.depth ≠ 0 || visited.contains place.source

/-! ## Groups -/

/-- A value that is made of all rows of a group. -/
structure Aggregate where
  places : List Place
  value : List Rows → Outcome Value
  /-- Which row other names stand for, if the aggregate chooses one. -/
  chosen : Option (List Rows → Outcome Nat)

structure SelectionParts where
  sources : List JoinedSource
  conditions : List Formula
  results : List Formula
  isDistinct : Bool
  isGrouped : Bool
  /-- The terms that are the same in a group, and whether they come in descending order. -/
  group : List (Formula × Bool)
  having : Option Formula
  aggregates : List Aggregate
  order : List OrderTerm
  /-- What the conditions mean for the visits. -/
  terms : List Condition
  /-- The columns by which the rows are wanted, if there is a single source. -/
  wanted : Option WantedOrder

namespace SelectionParts

/-- The places that a selection is made from, when some results are looked at. -/
def allPlaces (parts : SelectionParts) (results : List Nat) : List Place :=
  let wanted :=
    if parts.isDistinct then parts.results
    else results.filterMap fun position => parts.results[position]?
  let formulas := wanted ++ parts.conditions ++ parts.group.map (·.1) ++ parts.having.toList ++
    parts.sources.flatMap (·.conditions)
  formulas.flatMap (·.places) ++ parts.aggregates.flatMap (·.places) ++
    parts.order.flatMap (·.places)

def demandOf (places : List Place) (source : Nat) (visit : Visit) : Demand where
  positions := (places.filter fun place => place.depth = 0 && place.source = source).map
    (·.position)
  visit

def outsidePlaces (places : List Place) : List Place :=
  (places.filter (0 < ·.depth)).map fun place => { place with depth := place.depth - 1 }

/-- Whether the sources are visited in their own order, because one of them keeps rows that match
nothing before. -/
def isSettled (parts : SelectionParts) : Bool := parts.sources.any (·.keepsRight)

/-- What is known of the sources when places of them are looked at. -/
def surveys (parts : SelectionParts) (places : List Place) : List Survey :=
  parts.sources.zipIdx.map fun (source, index) =>
    { source := index
      table := source.table
      used := (demandOf places index .rows).positions.eraseDups.filter fun position =>
        position < source.shape.columns.length
      before :=
        if parts.isSettled || source.keepsLeft || source.isCross then List.range index else []
      order := (parts.wanted.map (·.columns)).getD [] }

def itinerary (parts : SelectionParts) (places : List Place) : Itinerary :=
  let surveys := parts.surveys places
  let found := match parts.wanted, surveys with
    | some wanted, [survey] =>
      survey.table.bind fun table => Itinerary.ordered table survey parts.terms wanted
    | _, _ => Itinerary.through surveys parts.terms
  found.getD ⟨(List.range parts.sources.length).map (·, .rows), false, false⟩

/-- The steps of some visits behind others, with the conditions that are decided in each, and the
conditions that are left. -/
def stepsFrom (parts : SelectionParts) (places : List Place) (isReversed : Bool) :
    List (Nat × Visit) → List Nat → List Formula → List JoinStep × List Formula
  | [], _, pending => ([], pending)
  | (index, visit) :: rest, visited, pending =>
    match parts.sources[index]? with
    | none => ([], pending)
    | some source =>
      let demand := demandOf places index visit
      let visited := index :: visited
      if parts.isSettled then
        let (steps, pending) := stepsFrom parts places isReversed rest visited pending
        (⟨source, index, demand, isReversed, source.conditions, []⟩ :: steps, pending)
      else
        let (now, later) := pending.partition (isKnownWith visited)
        let matching := if source.keepsLeft then source.conditions else []
        let (steps, pending) := stepsFrom parts places isReversed rest visited later
        (⟨source, index, demand, isReversed, matching, now⟩ :: steps, pending)

/-- The rows of all sources put together, of which the conditions hold. -/
def joined (parts : SelectionParts) (places : List Place) (itinerary : Itinerary)
    (outside : Rows) : Feed Fault (List Row) :=
  let empty := parts.sources.map fun _ => Row.empty
  let own := parts.sources.filter fun source => !source.keepsLeft && !parts.isSettled
  let pending := own.flatMap (·.conditions) ++ parts.conditions
  let (steps, pending) :=
    parts.stepsFrom places itinerary.isReversed itinerary.visits [] pending
  let rows := steps.foldl (fun feed step => step.join outside empty feed) (.single empty)
  if pending.isEmpty then rows
  else rows.filter fun rows => allHold pending (rows :: outside)

/-- The row that stands for a group: one of its rows, and the values of the aggregates. -/
def groupRow (parts : SelectionParts) (outside : Rows) (group : List (List Row)) :
    Outcome (List Row) := do
  let all := group.map (· :: outside)
  let place ← match parts.aggregates.findSome? (·.chosen) with
    | some chosen => chosen all
    | none => pure 0
  let shown := group.getD place (parts.sources.map fun _ => Row.empty)
  let totals : Row := fun position =>
    match parts.aggregates[position]? with
    | some aggregate => aggregate.value all
    | none => .ok .null
  return shown ++ [totals]

def grouped (parts : SelectionParts) (outside : Rows) (rows : Feed Fault (List Row)) :
    Outcome (List (List Row)) := do
  let rows ← rows.toList
  let groups ←
    if parts.group.isEmpty then pure [rows]
    else do
      let compare ← parts.group.mapM fun (term, isDescending) => do
        return OrderTerm.directed ⟨isDescending, none⟩ (← term.ordering)
      let keyed ← rows.mapM fun row => do
        return (← parts.group.mapM fun (term, _) => term.value (row :: outside), row)
      pure (runs compare (sortedBy compare keyed))
  groups.mapM (parts.groupRow outside)

def ordered (parts : SelectionParts) (outside : Rows) (rows : Feed Fault (List Row)) :
    Feed Fault (List Row) :=
  if parts.order.isEmpty then rows
  else .ofExcept do
    let keyed ← (← rows.toList).mapM fun row => do
      return (← parts.order.mapM fun term => term.value (row :: outside), row)
    return (sortedBy (parts.order.map (·.compare)) keyed).map (·.2)

def resultRow (parts : SelectionParts) (outside : Rows) (rows : List Row) : Row := fun position =>
  match parts.results[position]? with
  | some formula => formula.value (rows :: outside)
  | none => .ok .null

/-- The rows without those whose results occurred before. -/
def distinct (parts : SelectionParts) (outside : Rows) (rows : Feed Fault (List Row)) :
    Feed Fault (List Row) :=
  if !parts.isDistinct then rows
  else
    match parts.results.mapM (·.ordering) with
    | .error fault => .failed fault
    | .ok compare =>
      rows.distinctAfter [] (fun a b => compareAll compare a b == .eq) fun row =>
        (parts.resultRow outside row).values parts.results.length

/-- The rows of a selection for some of its results. -/
def rows (parts : SelectionParts) (results : List Nat) (outside : Rows) : Feed Fault Row :=
  let places := parts.allPlaces results
  let itinerary := parts.itinerary places
  let joined := parts.joined places itinerary outside
  let rows := if parts.isGrouped then .ofExcept (parts.grouped outside joined) else joined
  let rows := match parts.having with
    | some having => rows.filter fun row => having.holds (row :: outside)
    | none => rows
  let settled :=
    if itinerary.isOrdered then parts.distinct outside (parts.ordered outside rows)
    else parts.ordered outside (parts.distinct outside rows)
  settled.map (parts.resultRow outside)

def source (parts : SelectionParts) : RowSource where
  places := fun demand =>
    outsidePlaces (parts.allPlaces demand.positions) ++
      (parts.sources.zipIdx.flatMap fun (source, index) =>
        source.source.places (demandOf (parts.allPlaces demand.positions) index .rows))
  rows := fun demand outside => parts.rows demand.positions outside

end SelectionParts

end ImageAudit.Sql
