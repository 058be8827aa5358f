import ImageAudit.Sql.Catalog

/-! # Approaches to tables

There are several ways to the rows of a source: all rows one after the other, the rows of some
numbers, or the entries of an index, all or those between bounds. Which one is taken, and which
source is visited first, decides in which order rows are put together, so it is part of what a query
means. The choice rests on rough estimates: costs and counts are ten times binary logarithms, and
every table is thought to have a million rows.
-/

namespace ImageAudit.Sql

/-! ## Estimates -/

/-- The estimate of a sum, by those of its terms. -/
def sumEstimate (a b : Int) : Int :=
  let gap := (a - b).natAbs
  let more : Int :=
    if 49 < gap then 0
    else if 31 < gap then 1
    else
      [10, 10, 9, 9, 8, 8, 7, 7, 7, 6, 6, 6, 5, 5, 5, 4, 4, 4, 4, 3, 3, 3, 3, 3, 3].getD gap 2
  max a b + more

/-- The estimate of the steps to one of so many rows. -/
def searchEstimate (count : Int) : Int :=
  if count ≤ 10 then 0 else (roughLogarithm count.toNat : Int) - 33

/-- How many rows a table is thought to have. -/
def usualCount : Int := 200

/-! ## Conditions -/

/-- What a condition says of a column. -/
inductive LeadTest where
  | equal
  /-- It is one of so many values. -/
  | among (count : Int)
  | missing
  | below
  | above
  /-- It lies between two bounds. -/
  | inside
  deriving DecidableEq, Repr

/-- A condition that can lead to rows of a source: a column is compared with what is known from the
sources before. -/
structure Lead where
  /-- The position of the condition. -/
  condition : Nat
  source : Nat
  /-- The column, or none for the number of the row. -/
  column : Option Nat
  test : LeadTest
  /-- The sources that the other side of the comparison is known from. -/
  needs : List Nat
  affinity : Affinity
  collation : Collation
  deriving DecidableEq, Repr

/-- What a condition means for the choice. -/
structure Condition where
  /-- The sources and positions that it looks at. -/
  places : List (Nat × Nat)
  leads : List Lead
  /-- How few rows are thought to meet it. -/
  reduction : Int
  deriving Repr

namespace Condition

def sources (condition : Condition) : List Nat := condition.places.map (·.1)

end Condition

/-! ## Approaches -/

inductive Visit where
  | rows
  /-- The entries of the index at a position among those of the table. -/
  | index (position : Nat)
  deriving DecidableEq, Repr

/-- A way to the rows of a source. -/
structure Approach where
  source : Nat
  visit : Visit
  /-- The sources that must be visited before. -/
  needs : List Nat
  leads : List Lead
  /-- What it costs once. -/
  setup : Int
  /-- What it costs each time. -/
  cost : Int
  /-- How many rows it yields each time. -/
  count : Int
  /-- How many parts of the key have one value. -/
  fixed : Nat
  /-- Whether an index is made for it. -/
  isBuilt : Bool
  hasEqual : Bool
  /-- Whether the entries hold all that is wanted. -/
  isCovering : Bool
  /-- Tells apart the approaches whose order may be of use. -/
  order : Nat
  deriving Repr

namespace Approach

def within (sources others : List Nat) : Bool := sources.all others.contains

/-- The approach with the count that the conditions leave which do not lead to its rows. -/
def reducedBy (approach : Approach) (conditions : List Condition) (size : Int) : Approach :=
  let others := conditions.zipIdx.filter fun (condition, position) =>
    condition.sources.contains approach.source &&
      within condition.sources (approach.source :: approach.needs) &&
      !approach.leads.any (·.condition = position)
  let reduction := others.foldl (fun most (condition, _) => max most condition.reduction) 0
  { approach with count := min (approach.count - others.length) (size - reduction) }

def visitsIndex (approach : Approach) : Bool := approach.visit matches .index _

/-- Whether an approach needs less than another one though it costs no more. -/
def isCheaperPart (part whole : Approach) : Bool :=
  if whole.cost < part.cost && whole.count < part.count then false
  else if part.fixed < whole.fixed && part.visit = whole.visit then true
  else
    part.leads.length < whole.leads.length && part.leads.all whole.leads.contains &&
      !(part.isCovering && !whole.isCovering)

/-- The approach with costs that agree with those of the approaches that use fewer conditions. -/
def adjustedTo (approach : Approach) (others : List Approach) : Approach :=
  if !approach.visitsIndex then approach
  else
    others.foldl (fun approach other =>
      if other.source ≠ approach.source || !other.visitsIndex then approach
      else if other.isCheaperPart approach then
        { approach with
          cost := min other.cost approach.cost
          count := min (other.count - 1) approach.count }
      else if approach.isCheaperPart other then
        { approach with
          cost := max other.cost approach.cost
          count := max (other.count + 1) approach.count }
      else approach) approach

/-- Whether one of two approaches may make the other needless. -/
def isComparable (a b : Approach) : Bool := a.source = b.source && a.order = b.order

/-- Whether an approach is better than one that would be new. -/
def outdoes (old new : Approach) : Bool :=
  within old.needs new.needs && old.setup ≤ new.setup && old.cost ≤ new.cost &&
    old.count ≤ new.count

/-- Whether a new approach takes the place of one that makes an index. -/
def replacesBuilt (new old : Approach) : Bool :=
  old.isBuilt && new.visitsIndex && new.hasEqual && within new.needs old.needs

/-- Whether a new approach takes the place of another one. -/
def replaces (new old : Approach) : Bool :=
  within new.needs old.needs && new.cost ≤ old.cost && new.count ≤ old.count

/-- Approaches without those that a new one takes the place of. -/
def without (new : Approach) : List Approach → List Approach
  | [] => []
  | old :: rest =>
    if !isComparable old new then old :: without new rest
    else if new.replacesBuilt old then without new rest
    else if old.outdoes new then old :: rest
    else if new.replaces old then without new rest
    else old :: without new rest

/-- Approaches with a new one, unless one of them is better. -/
def insert (new : Approach) : List Approach → List Approach
  | [] => [new]
  | old :: rest =>
    if !isComparable old new then old :: insert new rest
    else if new.replacesBuilt old then new :: without new rest
    else if old.outdoes new then old :: rest
    else if new.replaces old then new :: without new rest
    else old :: insert new rest

def insertAll (approaches new : List Approach) : List Approach :=
  new.foldl (fun approaches approach =>
    insert (approach.adjustedTo approaches) approaches) approaches

end Approach

/-! ## Keys -/

/-- Something by which rows are found: their numbers, or an index. -/
structure Probe where
  visit : Visit
  /-- What is compared, in order: columns, or none for the number of the row. -/
  parts : List (Option (Option Nat))
  /-- The collations of the key, in order. -/
  collations : List Bytes
  /-- How many rows have the same values in so many parts. -/
  counts : List Int
  /-- What it costs to go on to the next entry. -/
  stepCost : Int
  isCovering : Bool
  /-- Whether nothing behind the key is compared. -/
  endsWithKey : Bool

namespace Probe

def numbers : Probe where
  visit := .rows
  parts := [some none]
  collations := []
  counts := [usualCount, 0]
  stepCost := 16
  isCovering := true
  endsWithKey := true

/-- How many entries of an index are thought to have the same values in so many parts. -/
def countsOf (index : Index) : List Int :=
  let size := index.collations.length
  let usual : List Int := (List.range size).map fun part => [33, 32, 30, 28, 26].getD part 23
  usualCount :: (if index.isUnique then usual.dropLast ++ [0] else usual)

def ofIndex (table : Table) (used : List Nat) (index : Index) (position : Nat) : Probe where
  visit := .index position
  parts := index.parts.map fun
    | .column column => some (if table.rowNumber = some column then none else some column)
    | .rowNumber => some none
    | .computed => none
  collations := index.collations
  counts := countsOf index
  stepCost := 1 + 15 * table.indexWeight index / table.weight
  isCovering := table.isCovered used index
  endsWithKey := index.isPrimary

/-- Whether a lead is about a part of the key. -/
def isLedBy (probe : Probe) (table : Table) (part : Nat) (lead : Lead) : Bool :=
  let isPart := probe.parts[part]?.join == some lead.column
  let affinity := ((lead.column.bind (table.columns[·]?)).map (·.affinity)).getD .integer
  let isKept :=
    match lead.affinity with
    | .none | .blob => true
    | .text => affinity = .text
    | _ => affinity.isNumeric
  let isCompared :=
    lead.column.isNone || lead.test = .missing ||
      match probe.collations[part]? with
      | some name => Collation.ofName? name = some lead.collation
      | none => true
  isPart && (lead.column.isNone || isKept) && isCompared

def countBetween (count : Int) (bounds : Nat) : Int :=
  let fewer := count - 20 * bounds - if bounds = 2 then 20 else 0
  min (max fewer 10) (count - bounds)

/-- The approach with another lead and what it is thought to cost. -/
def priced (probe : Probe) (approach : Approach) (lead : Lead) (multiplier : Int) : Approach :=
  let search := searchEstimate (probe.counts.headD usualCount)
  let scan := sumEstimate search (approach.count + probe.stepCost)
  let cost := if probe.isCovering then scan else sumEstimate scan (approach.count + 16)
  { approach with
    needs := (approach.needs ++ lead.needs).eraseDups
    leads := approach.leads ++ [lead]
    cost := cost + multiplier
    count := approach.count + multiplier }

/-- The approaches by leads to the parts of a key, from an approach by leads to those before. The
fuel bounds the parts. -/
def approachesFrom (probe : Probe) (table : Table) (leads : List Lead)
    (conditions : List Condition) : Nat → Approach → Int → Bool → List Approach
  | 0, _, _, _ => []
  | fuel + 1, approach, multiplier, hasLower =>
    let size := probe.counts.headD usualCount
    let part := approach.fixed
    let goesOn (part : Nat) : Bool :=
      part < probe.parts.length && (part < probe.collations.length || !probe.endsWithKey)
    (leads.filter (probe.isLedBy table part)).flatMap fun lead =>
      let count (part : Nat) : Int := probe.counts.getD part 0
      let settled (change multiplier : Int) (isEqual : Bool) : List Approach :=
        let found :=
          { approach with
            count := approach.count + count (part + 1) - count part + change
            fixed := part + 1
            hasEqual := approach.hasEqual || isEqual }
        let priced := probe.priced found lead multiplier
        let next := { priced with count := found.count }
        priced.reducedBy conditions size ::
          if goesOn (part + 1) then
            approachesFrom probe table leads conditions fuel next multiplier false
          else []
      let bounded (bounds : Nat) : Approach :=
        probe.priced { approach with count := countBetween approach.count bounds } lead multiplier
      match lead.test, hasLower with
      | .equal, false => settled 0 multiplier true
      | .missing, false => settled 10 multiplier false
      | .among values, false => settled 0 (multiplier + values) false
      | .above, false =>
        let found := bounded 1
        let next := { found with count := approach.count }
        found.reducedBy conditions size ::
          if goesOn part then approachesFrom probe table leads conditions fuel next multiplier true
          else []
      | .below, false => [(bounded 1).reducedBy conditions size]
      | .inside, false => [(bounded 2).reducedBy conditions size]
      | .below, true => [(bounded 2).reducedBy conditions size]
      | _, true => []

def approaches (probe : Probe) (table : Table) (leads : List Lead) (conditions : List Condition)
    (start : Approach) : List Approach :=
  probe.approachesFrom table leads conditions (2 * probe.parts.length + 1)
    { start with
      visit := probe.visit
      isCovering := probe.isCovering
      count := probe.counts.headD usualCount } 0 false

end Probe

/-! ## Sources -/

/-- A column by which rows come in order. -/
structure OrderColumn where
  /-- The column, or none for the number of the row. -/
  column : Option Nat
  collation : Collation
  isDescending : Bool
  deriving DecidableEq, Repr

/-- What is known of a source when its approaches are weighed. -/
structure Survey where
  source : Nat
  /-- The table, if the rows are those of one. -/
  table : Option Table
  /-- The columns that are looked at. -/
  used : List Nat
  /-- The sources that must be visited before. -/
  before : List Nat
  /-- The columns by which rows are to come. -/
  order : List OrderColumn

namespace Survey

def start (survey : Survey) : Approach where
  source := survey.source
  visit := .rows
  needs := survey.before
  leads := []
  setup := 0
  cost := usualCount + 16
  count := usualCount
  fixed := 0
  isBuilt := false
  hasEqual := false
  isCovering := true
  order := 0

def leads (survey : Survey) (conditions : List Condition) : List Lead :=
  (conditions.flatMap (·.leads)).filter fun lead =>
    lead.source = survey.source && !lead.needs.contains survey.source

/-- The approaches by an index that is made for one column. -/
def built (survey : Survey) (conditions : List Condition) : List Approach :=
  let search := searchEstimate usualCount
  let isOwn (lead : Lead) : Bool :=
    lead.test = .equal && lead.column.isSome &&
      Probe.isLedBy ⟨.rows, [some lead.column], [], [], 0, true, true⟩
        (survey.table.getD ⟨[], [], 0, true, none, []⟩) 0 lead
  ((survey.leads conditions).filter isOwn).map fun lead =>
    { survey.start with
      needs := (survey.before ++ lead.needs).eraseDups
      leads := [lead]
      setup := search + usualCount + if survey.table.isSome then 28 else -25
      cost := sumEstimate search 43
      count := 43
      fixed := 1
      isBuilt := true }

/-- Whether the columns of the order are among some. -/
def mayOrder (survey : Survey) (parts : List (Option (Option Nat))) : Bool :=
  survey.order.any fun term => term.column.isNone || parts.contains (some term.column)

/-- The cost of all entries of an index, with the rows they lead to where more is wanted. -/
def scanCost (survey : Survey) (probe : Probe) (conditions : List Condition) : Int :=
  let cost := usualCount + probe.stepCost
  if probe.isCovering then cost
  else
    let isDecided (condition : Condition) : Bool :=
      condition.places.all fun (source, position) =>
        source ≠ survey.source || probe.parts.contains (some (some position))
    let decided := conditions.takeWhile isDecided
    let saved := decided.foldl (fun saved condition =>
      saved + if condition.leads.any (·.test = .equal) then 20 else 1) (0 : Int)
    sumEstimate cost (usualCount + 16 - saved)

def ofIndex (survey : Survey) (conditions : List Condition) (table : Table) (index : Index)
    (position : Nat) : List Approach :=
  let probe := Probe.ofIndex table survey.used index position
  let key := probe.parts.take index.collations.length
  let helps := survey.mayOrder key
  let start := { survey.start with order := if helps then position + 2 else 0 }
  let isScanned := helps || !table.hasRowNumbers ||
    probe.isCovering && table.indexWeight index < table.weight
  let scan :=
    if isScanned then
      [{ start with
          visit := probe.visit
          isCovering := probe.isCovering
          cost := survey.scanCost probe conditions }.reducedBy conditions usualCount]
    else []
  scan ++ probe.approaches table (survey.leads conditions) conditions start

/-- All approaches to a source that may be of use. -/
def approaches (survey : Survey) (conditions : List Condition) : List Approach :=
  match survey.table with
  | none => survey.built conditions ++ [survey.start.reducedBy conditions usualCount]
  | some table =>
    let indexes := table.indexes.zipIdx.filter fun (index, _) =>
      !index.isPartial && index.isComparable
    let byIndex := indexes.flatMap fun (index, position) =>
      survey.ofIndex conditions table index position
    if table.hasRowNumbers then
      let start :=
        { survey.start with order := if survey.mayOrder [some none] then 1 else 0 }
      survey.built conditions ++ [start.reducedBy conditions usualCount] ++
        Probe.numbers.approaches table (survey.leads conditions) conditions start ++ byIndex
    else byIndex

end Survey

end ImageAudit.Sql
