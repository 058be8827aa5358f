import ImageAudit.Sql.Function
import ImageAudit.Sql.Scope
import ImageAudit.Sql.TableScan

/-! # Conditions that lead to rows

A condition is a list of terms that must all hold. A term that compares a column with something else
can lead to the rows for which it holds, once what the column is compared with is known.
-/

namespace ImageAudit.Sql

/-- The terms that must all hold for an expression to hold. -/
def Expression.terms : Expression → List Expression
  | .binary .and left right => left.terms ++ right.terms
  | expression => [expression]

def Expression.uncollated : Expression → Expression
  | .collate operand _ => operand.uncollated
  | expression => expression

/-- The source of a place, and its position there or none for the number of the row. -/
def Level.placed? (level : Level) (place : Place) (column : SourceColumn) :
    Option (Nat × Option Nat) :=
  if place.depth ≠ 0 then none
  else
    let isNumber := level.sources[place.source]?.any fun shape =>
      shape.columns.length == place.position || shape.rowNumberName == some column.name
    some (place.source, if isNumber then none else some place.position)

/-- What a name of a column stands for. -/
def Level.columnAt? (level : Level) (table : Option Bytes) (name : Bytes) :
    Option (Nat × Option Nat) :=
  match level.meaning? 0 table name with
  | .ok (some (.place place column)) => level.placed? place column
  | _ => none

def Level.column? (level : Level) (expression : Expression) : Option (Nat × Option Nat) :=
  match expression.uncollated with
  | .name name _ => level.columnAt? none name
  | .qualified _ table name => level.columnAt? (some table) name
  | _ => none

def Formula.sources (formula : Formula) : List Nat :=
  ((formula.places.filter (·.depth = 0)).map (·.source)).eraseDups

/-- Where a term stands, and how its formulas are made. -/
structure TermSite where
  /-- The position among all terms. -/
  position : Nat
  level : Level
  /-- The sources that must be visited before the term leads to anything. -/
  before : List Nat
  /-- The sources that the term may lead to. -/
  leadsTo : Nat → Bool
  make : Expression → Outcome Formula

namespace TermSite

/-- The lead of a column that is compared with an expression. `isLeft` tells whether it stands to the
left. -/
def lead? (site : TermSite) (isLeft : Bool) (test : LeadTest) (subject other : Expression) :
    Option Lead := do
  let (source, column) ← site.level.column? subject
  let formula ← (site.make subject).toOption
  let compared ← (site.make other).toOption
  let (left, right) := if isLeft then (formula, compared) else (compared, formula)
  let collation ← (CollationChoice.comparing left.collation right.collation).toOption
  if !site.leadsTo source then failure
  return {
    condition := site.position
    source
    column
    test
    needs := (site.before.filter (· ≠ source) ++ compared.sources).eraseDups
    affinity := Formula.commonAffinity formula.affinity compared.affinity
    collation }

/-- The lead of a column of which no other expression is the bound. -/
def ownLead? (site : TermSite) (test : LeadTest) (subject : Expression) : Option Lead := do
  let (source, column) ← site.level.column? subject
  let formula ← (site.make subject).toOption
  let collation ← (CollationChoice.comparing formula.collation .none).toOption
  if !site.leadsTo source then failure
  return {
    condition := site.position
    source
    column
    test
    needs := site.before.filter (· ≠ source)
    affinity := if formula.affinity = .none then .blob else formula.affinity
    collation }

/-- What a comparison says of its left and of its right operand. -/
def testsOf : BinaryOperator → Option (LeadTest × LeadTest)
  | .equal | .isSame => some (.equal, .equal)
  | .less | .lessEqual => some (.below, .above)
  | .greater | .greaterEqual => some (.above, .below)
  | _ => none

/-- The text that everything begins with that a pattern matches, if there is one. -/
def patternStart? (kind : PatternKind) (pattern : Bytes) : Option Bytes :=
  let isWild (byte : UInt8) : Bool :=
    match kind with
    | .like => byte = 0x25 || byte = 0x5F
    | _ => byte = 0x2A || byte = 0x3F || byte = 0x5B
  let start := pattern.takeWhile fun byte => !isWild byte
  if start = [] then none else some start

/-- The leads of a pattern: what it matches lies behind the text that it begins with. -/
def patternLeads (site : TermSite) (kind : PatternKind) (subject : Expression) (pattern : Bytes) :
    List Lead :=
  match patternStart? kind pattern, (site.make subject).toOption with
  | some _, some formula =>
    if formula.affinity = .text then
      (site.ownLead? .inside subject).toList.map fun lead =>
        { lead with collation := if kind = .like then .noCase else .binary }
    else []
  | _, _ => []

def leads (site : TermSite) : Expression → List Lead
  | .binary .isSame subject (.literal .null) | .unary .isNull subject =>
    (site.ownLead? .missing subject).toList
  | .binary operator left right =>
    match testsOf operator with
    | some (forLeft, forRight) =>
      (site.lead? true forLeft left right).toList ++ (site.lead? false forRight right left).toList
    | none => []
  | .between false subject low high =>
    (site.lead? true .above subject low).toList ++ (site.lead? true .below subject high).toList
  | .inList false subject [item] => (site.lead? true .equal subject (.unary .plus item)).toList
  | .inList false subject items =>
    (site.ownLead? (.among (roughLogarithm items.length)) subject).toList
  | .inQuery false subject _ => (site.ownLead? (.among 46) subject).toList
  | .pattern kind false subject (.literal (.text pattern)) none =>
    if kind = .like || kind = .glob then site.patternLeads kind subject pattern else []
  | _ => []

/-- Two columns that are equal because they share a name. -/
def sharing (site : TermSite) (left right : Formula) : Condition :=
  let placed (formula : Formula) : Option (Nat × Option Nat) := do
    let place ← formula.places.head?
    let shape ← site.level.sources[place.source]?
    site.level.placed? place (← shape.columns[place.position]?)
  let lead (subject other : Formula) : List Lead :=
    match placed subject, CollationChoice.comparing left.collation right.collation with
    | some (source, column), .ok collation =>
      if site.leadsTo source then
        [{ condition := site.position
           source
           column
           test := .equal
           needs := (site.before.filter (· ≠ source) ++ other.sources).eraseDups
           affinity := Formula.commonAffinity left.affinity right.affinity
           collation }]
      else []
    | _, _ => []
  { places := (left.places ++ right.places).map fun place => (place.source, place.position)
    leads := lead left right ++ lead right left
    reduction := 20 }

/-- Whether an expression is a whole number next to zero. -/
def isSmallNumber : Expression → Bool
  | .literal (.integer digits) => !isHexNumber digits && Numeral.natOf digits ≤ 1
  | .unary .plus operand => isSmallNumber operand
  | .unary .minus operand => isSmallNumber operand
  | _ => false

/-- How few rows are thought to meet a term. -/
def reduction (site : TermSite) (leads : List Lead) : Expression → Int
  | .binary operator left right =>
    if leads.any (·.test = .equal) && (operator = .equal || operator = .isSame) then
      let other := if (site.level.column? left).isSome then right else left
      if isSmallNumber other then 10 else 20
    else 0
  | .inList false _ [item] => if leads = [] then 0 else if isSmallNumber item then 10 else 20
  | _ => 0

/-- A term with its formula as it counts in the choice. -/
def condition (site : TermSite) (term : Expression) (formula : Formula) : Condition :=
  let leads := (site.leads term).map fun lead =>
    match lead.test with
    | .among _ =>
      let others := formula.sources.filter (· ≠ lead.source)
      { lead with needs := (lead.needs ++ others).eraseDups }
    | _ => lead
  { places := (formula.places.filter (·.depth = 0)).map fun place => (place.source, place.position)
    leads
    reduction := site.reduction leads term }

end TermSite

/-! ## Rows that are not there -/

/-- Whether an expression has no value where a source has no row. -/
def Level.misses (level : Level) (source : Nat) (expression : Expression) : Bool :=
  (level.column? expression).any fun (found, _) => found = source

/-- Whether a term does not hold where a source has no row. -/
def Level.rejectsMissing (level : Level) (source : Nat) : Expression → Bool
  | .unary .notNull operand => level.misses source operand
  | .binary .isNotSame operand (.literal .null) => level.misses source operand
  | .binary operator left right =>
    (Formula.BinaryOperator.holds? operator).isSome &&
      (level.misses source left || level.misses source right)
  | .between _ subject _ _ | .inList _ subject _ => level.misses source subject
  | _ => false

end ImageAudit.Sql
