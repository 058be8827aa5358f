import ImageAudit.Sql.Selection

/-! # Recursive queries

A recursive query has rows to begin with, and further rows for each of its rows. Rows wait in a
queue; one is taken after the other, and what follows from it joins the queue behind.
-/

namespace ImageAudit.Sql

structure RecursionParts where
  columns : List SourceColumn
  start : RowSource
  /-- What follows from a row, which is at hand as a query of its own around them. -/
  steps : List RowSource
  /-- Whether a row that occurred before is dropped. -/
  isDistinct : Bool
  /-- The order in which rows are taken, if it is not that of the queue. -/
  order : List (Nat × (Value → Value → Ordering))

namespace RecursionParts

/-- The demand for all columns. -/
def demand (parts : RecursionParts) : Demand := .of (List.range parts.columns.length)

def valuesOf (parts : RecursionParts) (source : RowSource) (rows : Rows) :
    Outcome (List (List Value)) := do
  (← (source.rows parts.demand rows).toList).mapM (·.values parts.columns.length)

/-- The rows that follow from a row. -/
def following (parts : RecursionParts) (rows : Rows) (row : List Value) :
    Outcome (List (List Value)) := do
  return (← parts.steps.mapM fun step => parts.valuesOf step ([Row.ofValues row] :: rows)).flatten

/-- The new rows that join the queue, and all rows that occurred. -/
def fresh (parts : RecursionParts) (compare : List (Value → Value → Ordering))
    (seen new : List (List Value)) : List (List Value) × List (List Value) :=
  if !parts.isDistinct then (new, seen)
  else
    let isSame (a b : List Value) : Bool := compareAll compare a b == .eq
    let (kept, seen) := new.foldl (fun (kept, seen) row =>
      if seen.any (isSame row) then (kept, seen) else (row :: kept, row :: seen)) ([], seen)
    (kept.reverse, seen)

/-- The queue with the row that is taken next in front. -/
def arranged (parts : RecursionParts) (queue : List (List Value)) : List (List Value) :=
  if parts.order.isEmpty then queue
  else
    let keyed := queue.map fun row => (parts.order.map fun (position, _) =>
      row.getD position .null, row)
    (sortedBy (parts.order.map (·.2)) keyed).map (·.2)

/-- The rows from a queue on. The fuel bounds their number. -/
def rowsFrom (parts : RecursionParts) (compare : List (Value → Value → Ordering)) (rows : Rows) :
    Nat → List (List Value) → List (List Value) → Feed Fault Row
  | 0, _, _ => .failed .tooLong
  | fuel + 1, queue, seen =>
    match parts.arranged queue with
    | [] => .done
    | row :: rest =>
      .item (Row.ofValues row) fun _ =>
        match parts.following rows row with
        | .error fault => .failed fault
        | .ok new =>
          let (kept, seen) := parts.fresh compare seen new
          parts.rowsFrom compare rows fuel (rest ++ kept) seen

def maxRows : Nat := 0x100000000

def source (parts : RecursionParts) : RowSource where
  places := fun _ => parts.start.places parts.demand ++
    parts.steps.flatMap fun step => SelectionParts.outsidePlaces (step.places parts.demand)
  rows := fun _ rows =>
    let begun : Outcome (List (Value → Value → Ordering) × List (List Value)) := do
      return (← rowOrder parts.columns, ← parts.valuesOf parts.start rows)
    match begun with
    | .error fault => .failed fault
    | .ok (compare, first) =>
      let (kept, seen) := parts.fresh compare [] first
      parts.rowsFrom compare rows maxRows kept seen

end RecursionParts

end ImageAudit.Sql
