import ImageAudit.Sql.Approach
import ImageAudit.Sql.Expression

/-! # The order of visits

The sources of a selection are visited one inside the other. Ways through them are built up source by
source, and of those through the same sources the cheapest is kept, and only a few in all. Where the
rows are wanted in an order, a way that yields them in that order saves sorting them.
-/

namespace ImageAudit.Sql

/-! ## Order -/

/-- In which order the rows of an approach come. -/
structure Arrival where
  /-- How many of the wanted columns they come in order by. -/
  sorted : Nat
  /-- Whether they are to be visited from the last to the first. -/
  isReversed : Bool
  deriving DecidableEq, Repr

namespace Approach

/-- What the rows of an approach come in the order of: columns, or none for the number of the row,
with the collation, and whether the order is descending. -/
def keys (approach : Approach) (table : Table) :
    List (Option (Option Nat) × Option Bytes × Bool) :=
  let index? := match approach.visit with
    | .rows => if table.hasRowNumbers then none else table.primary?
    | .index position => table.indexes[position]?
  match index? with
  | none => [(some none, none, false)]
  | some index =>
    (Probe.ofIndex table [] index 0).parts.zipIdx.map fun (part, position) =>
      (part, index.collations[position]?, index.descending.getD position false)

/-- Goes on with the parts of a key. `wanted` holds the columns that are wanted in order, each with
whether it is satisfied. If any order will do, it does not matter which comes first. -/
def arrivalFrom (isAny : Bool) :
    List (Option (Option Nat) × Option Bytes × Bool × Bool) → Option Bool →
      List (OrderColumn × Bool) → Option Bool × List (OrderColumn × Bool)
  | [], reversed, wanted => (reversed, wanted)
  | (part, collation, isDescending, isFixed) :: rest, reversed, wanted =>
    if wanted.all (·.2) then (reversed, wanted)
    else if isFixed then arrivalFrom isAny rest reversed wanted
    else
      let agrees (term : OrderColumn) : Bool :=
        part == some term.column &&
          (term.column.isNone ||
            collation.all fun name => Collation.ofName? name = some term.collation)
      let place? := wanted.findIdx? fun (term, isSatisfied) =>
        !isSatisfied && (!isAny || agrees term)
      match place?.bind fun place => (wanted[place]?).map (place, ·) with
      | none => (reversed, wanted)
      | some (place, term, _) =>
        let isReversed := isDescending != term.isDescending
        if !agrees term || !isAny && reversed.any (· != isReversed) then (reversed, wanted)
        else
          let wanted := if part = some none then wanted.map fun (term, _) => (term, true)
            else wanted.set place (term, true)
          arrivalFrom isAny rest (if isAny then some false else some isReversed) wanted

/-- In which order the rows of an approach come, where some columns have a single value. -/
def arrival (approach : Approach) (table : Table) (single : List (Option Nat))
    (order : List OrderColumn) (isAny : Bool) : Arrival :=
  let keys := (approach.keys table).zipIdx.map fun ((part, collation, isDescending), position) =>
    let isFixed := approach.visitsIndex && position < approach.fixed &&
      (approach.leads[position]?).any fun lead => lead.test = .equal || lead.test = .missing
    (part, collation, isDescending, isFixed)
  let wanted := order.map fun term => (term, single.contains term.column)
  let isOne := approach.hasEqual && !approach.visitsIndex && !approach.isBuilt
  let (reversed, wanted) :=
    if isOne then (none, wanted.map fun (term, _) => (term, true))
    else arrivalFrom isAny keys none wanted
  ⟨(wanted.takeWhile (·.2)).length, reversed.getD false⟩

end Approach

/-! ## Ways -/

structure Way where
  /-- The approaches, in the order of the visits. -/
  approaches : List Approach
  count : Int
  /-- What it costs with the rows in order. -/
  cost : Int
  unsorted : Int
  isOrdered : Bool
  deriving Repr

namespace Way

def sources (way : Way) : List Nat := way.approaches.map (·.source)

/-- Whether two ways lead through the same sources. -/
def isAlongside (a b : Way) : Bool :=
  Approach.within a.sources b.sources && Approach.within b.sources a.sources

/-- Whether a way costs no more than another one. -/
def isAsGood (a b : Way) : Bool :=
  a.cost < b.cost || a.cost = b.cost &&
    (a.count < b.count || a.count = b.count && a.unsorted ≤ b.unsorted)

/-- The way that costs the most, and its position. -/
def worst : List Way → Option (Nat × Int × Int)
  | [] => none
  | first :: rest =>
    some <| rest.zipIdx.foldl (fun (position, cost, unsorted) (way, index) =>
      if cost < way.cost || cost = way.cost && unsorted < way.unsorted then
        (index + 1, way.cost, way.unsorted)
      else (position, cost, unsorted)) (0, first.cost, first.count)

/-- Ways with another one, not more than a limit. -/
def keep (limit : Nat) (ways : List Way) (way : Way) : List Way :=
  match ways.findIdx? (isAlongside way) with
  | some position =>
    if ways[position]?.any fun old => old.isAsGood way then ways else ways.set position way
  | none =>
    if ways.length < limit then ways ++ [way]
    else
      match worst ways with
      | some (position, cost, unsorted) =>
        if way.cost < cost || way.cost = cost && way.unsorted < unsorted then
          ways.set position way
        else ways
      | none => ways

/-- Whether an approach may come next. -/
def allows (way : Way) (approach : Approach) : Bool :=
  Approach.within approach.needs way.sources && !way.sources.contains approach.source &&
    !(approach.isBuilt && way.count < 3)

/-- The way with another approach. `sorting` is the cost of putting the rows in order, if that is
wanted and they do not come in it. -/
def extended (way : Way) (approach : Approach) (sorting : Option Int) : Way :=
  let cost := approach.cost + way.count
  let cost := if approach.setup = 0 then cost else sumEstimate approach.setup cost
  let cost := sumEstimate cost way.unsorted
  { approaches := way.approaches ++ [approach]
    count := way.count + approach.count
    cost := match sorting with
      | some sorting => sumEstimate cost sorting + 3
      | none => cost
    unsorted := if sorting.isSome then cost else cost - 2
    isOrdered := sorting.isNone }

/-- The ways that are kept when one source more is visited. -/
def next (limit : Nat) (sorting : Approach → Option Int) (approaches : List Approach)
    (ways : List Way) : List Way :=
  ways.foldl (fun kept way =>
    (approaches.filter way.allows).foldl (fun kept approach =>
      keep limit kept (way.extended approach (sorting approach))) kept) []

/-- The cheapest way through so many sources. -/
def cheapest? (count : Nat) (sorting : Approach → Option Int) (approaches : List Approach) :
    Option Way :=
  let limit := if count ≤ 1 then 1 else if count = 2 then 5 else 10
  let ways := (List.range count).foldl (fun ways _ => next limit sorting approaches ways)
    [⟨[], 0, 0, 0, true⟩]
  ways.foldl (fun best way =>
    match best with
    | some found => if way.cost < found.cost then some way else best
    | none => some way) none

end Way

/-! ## Itineraries -/

/-- The visits of a selection. -/
structure Itinerary where
  visits : List (Nat × Visit)
  /-- Whether they are made from the last to the first row. -/
  isReversed : Bool
  /-- Whether the rows come in the wanted order. -/
  isOrdered : Bool
  deriving DecidableEq, Repr

/-- The order that is wanted of the rows of a single source. -/
structure WantedOrder where
  columns : List OrderColumn
  /-- Whether it is enough that the same values come together. -/
  isAny : Bool
  /-- Whether each row is wanted once. -/
  isDistinct : Bool
  /-- How many results a row has. -/
  width : Nat

namespace Itinerary

/-- What it costs to put rows in order, of which so many columns are in order already. -/
def sortingCost (wanted : WantedOrder) (count : Int) (sorted : Nat) : Int :=
  let size := wanted.columns.length
  let saved : Int :=
    if sorted = 0 then 0 else (roughLogarithm ((size - sorted) * 100 / size) : Int) - 66
  let fewer := if wanted.isDistinct && 10 < count then count - 10 else count
  count + (roughLogarithm ((wanted.width + 59) / 30) : Int) + saved + searchEstimate fewer

def singleColumns (conditions : List Condition) : List (Option Nat) :=
  (conditions.flatMap (·.leads)).filterMap fun lead =>
    if lead.needs = [] && (lead.test = .equal || lead.test = .missing) then some lead.column
    else none

/-- The itinerary of a single table with rows in an order. -/
def ordered (table : Table) (survey : Survey) (conditions : List Condition)
    (wanted : WantedOrder) : Option Itinerary := do
  let approaches := Approach.insertAll [] (survey.approaches conditions)
  let single := singleColumns conditions
  let arrival (approach : Approach) : Arrival :=
    approach.arrival table single wanted.columns wanted.isAny
  let plain ← Way.cheapest? 1 (fun _ => none) approaches
  let count := if plain.count < 0 then 1 else plain.count + 1
  let sorting (approach : Approach) : Option Int :=
    let sorted := (arrival approach).sorted
    if sorted = wanted.columns.length then none else some (sortingCost wanted count sorted)
  let way ← Way.cheapest? 1 sorting approaches
  let approach ← way.approaches.head?
  return ⟨[(approach.source, approach.visit)], (arrival approach).isReversed, way.isOrdered⟩

def through (surveys : List Survey) (conditions : List Condition) : Option Itinerary := do
  let approaches := Approach.insertAll [] (surveys.flatMap (·.approaches conditions))
  let way ← Way.cheapest? surveys.length (fun _ => none) approaches
  return ⟨way.approaches.map fun approach => (approach.source, approach.visit), false, false⟩

end Itinerary

end ImageAudit.Sql
