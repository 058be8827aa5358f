import ImageAudit.Sql.Fault
import ImageAudit.Sql.Function.Format

/-! # Functions

A function takes values of one row, or those of many rows if it is an aggregate. Which functions
there are, and with how many arguments, is known also for those that cannot be evaluated here.
-/

namespace ImageAudit.Sql

inductive FunctionKind where
  | scalar (compute : TextStorage → Collation → List Value → Outcome Value)
  /-- The rows of arguments come in order. -/
  | aggregate (compute : TextStorage → Collation → List (List Value) → Outcome Value)
  /-- It can only stand over a window. -/
  | window
  | unknownScalar
  | unknownAggregate

structure Function where
  name : String
  least : Nat
  most : Option Nat
  /-- Whether it yields the same for the same arguments at any time. -/
  isDeterministic : Bool
  kind : FunctionKind

namespace Function

open TextFunction

/-! ## Functions of one row -/

def absolute : Value → Outcome Value
  | .null => .ok .null
  | .integer value =>
    if value = -0x8000000000000000 then .error (.value "integer overflow")
    else .ok (.integer value.natAbs)
  | value => .ok (.real value.toReal.abs)

/-- The value as a number if it is one as a whole. -/
def asNumber (value : Value) : Value := value.withAffinity .numeric

def sign (value : Value) : Value :=
  match asNumber value with
  | .integer number => .integer number.sign
  | .real number => .integer (if number < 0 then -1 else if 0 < number then 1 else 0)
  | _ => .null

/-- The length: that of bytes, or the characters of a text. -/
def size (storage : TextStorage) (value : Value) : Value :=
  match value with
  | .null => .null
  | .blob content => .integer content.length
  | _ => .integer (characters ((value.textBytes? storage).getD [])).length

def byteSize (storage : TextStorage) (value : Value) : Value :=
  match value with
  | .null => .null
  | .blob content => .integer content.length
  | _ => .integer (storage.encode ((value.textBytes? storage).getD [])).length

def onText (change : Bytes → Value) (storage : TextStorage) (value : Value) : Value :=
  match value.textBytes? storage with
  | some text => change text
  | none => .null

def substring (storage : TextStorage) (value start : Value) (count : Option Value) : Value :=
  if start matches .null || (count.any (· matches .null)) then .null
  else
    match value with
    | .null => .null
    | .blob content => .blob (part content start.toWhole (count.map (·.toWhole)))
    | _ =>
      let items := characters ((value.textBytes? storage).getD [])
      .text (part items start.toWhole (count.map (·.toWhole))).flatten

/-- Where one value first occurs in another. -/
def instr (storage : TextStorage) (value piece : Value) : Value :=
  match value, piece with
  | .null, _ | _, .null => .null
  | .blob content, .blob piece => .integer (occurrence piece content 1)
  | _, _ =>
    let of (value : Value) : List Bytes := characters ((value.textBytes? storage).getD [])
    .integer (occurrence (of piece) (of value) 1)

def trimmed (atStart atEnd : Bool) (storage : TextStorage) (values : List Value) : Value :=
  let set := match values with
    | [_, set] => set.textBytes? storage
    | _ => some [0x20]
  match (values.headD .null).textBytes? storage, set with
  | some text, some set =>
    let set := characters set
    let items := characters text
    let items := if atStart then trimStart set items else items
    .text (if atEnd then trimEnd set items else items).flatten
  | _, _ => .null

/-- The text with one piece in place of another. -/
def replaced (storage : TextStorage) (values : List Value) : Value :=
  match values.map fun value => value.textBytes? storage with
  | [some text, some [], some _] => .text text
  | [some text, some piece, some replacement] =>
    .text (replaceOf piece replacement (text.length + 1) text)
  | _ => .null

/-- A real number rounded to some decimal places, a half away from zero. -/
def rounded (value : Float) (places : Nat) : Float :=
  if value.abs > 4503599627370496.0 || value == 0 then value
  else
    let (mantissa, power) := Real.parts value.abs
    let digits :=
      if power < 0 then Real.roundedQuotient (mantissa * Nat.pow 10 places) (Nat.pow 2 power.natAbs)
      else mantissa * Nat.pow 2 power.natAbs * Nat.pow 10 places
    let size := Float.ofScientific digits true places
    if value < 0 then -size else size

def round (values : List Value) : Value :=
  match values with
  | [value] => if value matches .null then .null else .real (rounded value.toReal 0)
  | [value, places] =>
    if value matches .null || places matches .null then .null
    else .real (rounded value.toReal (max 0 (min 30 places.toWhole)).toNat)
  | _ => .null

def className : Value → String
  | .null => "null"
  | .integer _ => "integer"
  | .real _ => "real"
  | .text _ => "text"
  | .blob _ => "blob"

/-- The value as it is written in a statement. -/
def literal (value : Value) : Bytes :=
  match value with
  | .null => Bytes.ofText "NULL"
  | .integer number => Bytes.ofText (toString number)
  | .real number => Bytes.ofText (Real.text number)
  | .text content => quoted 0x27 content.untilZero
  | .blob content => 0x58 :: quoted 0x27 (hexadecimal content)

def firstValue (values : List Value) : Value :=
  (values.find? fun value => !(value matches .null)).getD .null

/-- The greatest or the least of some values; nothing where one is missing. -/
def extreme (isBetter : Ordering) (collation : Collation) (values : List Value) : Value :=
  if values.any (· matches .null) then .null
  else
    values.tail.foldl (fun best value =>
      if value.order collation best = isBetter then value else best) (values.headD .null)

/-- Texts put together, with another one between them. -/
def joined (storage : TextStorage) (separator : Bytes) (values : List Value) : Value :=
  .text (List.intercalate separator (values.filterMap fun value => value.textBytes? storage))

/-- Bytes that hexadecimal digits write. -/
def unhex (storage : TextStorage) (values : List Value) : Value :=
  let ignored := match values with
    | [_, ignored] => ignored.textBytes? storage
    | _ => some []
  match (values.headD .null).textBytes? storage, ignored with
  | some text, some ignored =>
    match unhexOf (characters ignored) (characters text) with
    | some content => .blob content
    | none => .null
  | _, _ => .null

def escapeCharacter (storage : TextStorage) (value : Value) : Outcome (Option Bytes) :=
  match (value.textBytes? storage).map characters with
  | none => .ok none
  | some [character] => .ok (some character)
  | some _ => .error (.value "ESCAPE expression must be a single character")

def patternMatch (storage : TextStorage) (rule : PatternRule) (pattern value : Value) : Value :=
  match pattern.textBytes? storage, value.textBytes? storage with
  | some pattern, some text => .ofTruth (some (matchesPattern rule pattern text))
  | _, _ => .null

/-- Whether a value matches a pattern that ignores case. -/
def like (storage : TextStorage) (values : List Value) : Outcome Value :=
  match values with
  | [pattern, value] => .ok (patternMatch storage (.like none) pattern value)
  | [pattern, value, escape] => do
    if escape matches .null then return .null
    return patternMatch storage (.like (← escapeCharacter storage escape)) pattern value
  | _ => .ok .null

def format (storage : TextStorage) (values : List Value) : Outcome Value :=
  match values with
  | [] => .ok .null
  | first :: rest =>
    match first.textBytes? storage with
    | some text => (formatted storage (text.length + 1) text.untilZero rest).map .text
    | none => .ok .null

def zeroBytes (value : Value) : Outcome Value :=
  let count := value.toWhole.toNat
  if maxTextSize < count then .error (.value "string or blob too big")
  else .ok (.blob (Bytes.zeros count))

/-! ## Functions of many rows -/

/-- The values of the first argument that are ones. -/
def present (rows : List (List Value)) : List Value :=
  (rows.map fun row => row.headD .null).filter fun value => !(value matches .null)

/-- The number of rows, or of those with a value. -/
def count (rows : List (List Value)) : Value :=
  .integer (rows.filter fun row => !(row.head?.any (· matches .null))).length

def realSum (values : List Value) : Float :=
  values.foldl (fun sum value => sum + value.toReal) 0

/-- The sum of numbers, which is whole if all of them are. -/
def sum (rows : List (List Value)) : Outcome Value :=
  let values := (present rows).map asNumber
  if values = [] then .ok .null
  else if values.all (· matches .integer _) then
    let total := values.foldl (· + ·.toWhole) 0
    if inWholeRange total then .ok (.integer total) else .error (.value "integer overflow")
  else .ok (.real (realSum values))

/-- The sum as a real number, zero for no values. -/
def total (rows : List (List Value)) : Value := .real (realSum (present rows))

def mean (rows : List (List Value)) : Value :=
  let values := present rows
  if values = [] then .null
  else .real (realSum values / Real.ofInt values.length)

def extremeOfRows (isBetter : Ordering) (collation : Collation) (rows : List (List Value)) :
    Value :=
  extreme isBetter collation (present rows)

/-- The texts of all rows with separators between them. -/
def grouped (storage : TextStorage) (rows : List (List Value)) : Value :=
  let texts := rows.filterMap fun row =>
    ((row.headD .null).textBytes? storage).map fun text =>
      ((match row with
        | [_, separator] => (separator.textBytes? storage).getD []
        | _ => [0x2C]), text)
  match texts with
  | [] => .null
  | (_, first) :: rest => .text (first ++ rest.flatMap fun (separator, text) => separator ++ text)

/-! ## The functions by name -/

/-- A function of one row that cannot fail. -/
def simple (name : String) (least : Nat) (most : Option Nat)
    (compute : TextStorage → List Value → Value) : Function :=
  ⟨name, least, most, true, .scalar fun storage _ values => .ok (compute storage values)⟩

def ofOne (name : String) (compute : TextStorage → Value → Value) : Function :=
  simple name 1 (some 1) fun storage values => compute storage (values.headD .null)

def ofRows (name : String) (least most : Nat)
    (compute : TextStorage → Collation → List (List Value) → Outcome Value) : Function :=
  ⟨name, least, some most, false, .aggregate compute⟩

def evaluable : List Function :=
  [ ⟨"abs", 1, some 1, true, .scalar fun _ _ values => absolute (values.headD .null)⟩,
    simple "char" 0 none fun _ values =>
      .text (values.flatMap fun value => ofCodePoint value.toWhole),
    simple "coalesce" 2 none fun _ values => firstValue values,
    simple "concat" 1 none fun storage values => joined storage [] values,
    simple "concat_ws" 2 none fun storage values =>
      match (values.headD .null).textBytes? storage with
      | some separator => joined storage separator values.tail
      | none => .null,
    ⟨"format", 0, none, true, .scalar fun storage _ values => format storage values⟩,
    ⟨"printf", 0, none, true, .scalar fun storage _ values => format storage values⟩,
    simple "glob" 2 (some 2) fun storage values =>
      patternMatch storage .glob (values.headD .null) (values.getD 1 .null),
    ofOne "hex" fun storage value =>
      .text (hexadecimal (match value.cast storage .blob with
        | .blob content => storage.decode content
        | _ => [])),
    simple "ifnull" 2 (some 2) fun _ values => firstValue values,
    simple "iif" 3 (some 3) fun _ values =>
      values.getD (if (values.headD .null).truth? = some true then 1 else 2) .null,
    simple "instr" 2 (some 2) fun storage values =>
      instr storage (values.headD .null) (values.getD 1 .null),
    ofOne "length" size,
    ⟨"like", 2, some 3, true, .scalar fun storage _ values => like storage values⟩,
    ofOne "likely" fun _ value => value,
    ofOne "unlikely" fun _ value => value,
    simple "likelihood" 2 (some 2) fun _ values => values.headD .null,
    ofOne "lower" (onText fun text => .text (text.map Byte.lower)),
    ofOne "upper" (onText fun text => .text (text.map Byte.upper)),
    simple "ltrim" 1 (some 2) (trimmed true false),
    simple "rtrim" 1 (some 2) (trimmed false true),
    simple "trim" 1 (some 2) (trimmed true true),
    ⟨"max", 2, none, true, .scalar fun _ collation values => .ok (extreme .gt collation values)⟩,
    ⟨"min", 2, none, true, .scalar fun _ collation values => .ok (extreme .lt collation values)⟩,
    ⟨"nullif", 2, some 2, true, .scalar fun _ collation values =>
      let value := values.headD .null
      .ok (if value.order collation (values.getD 1 .null) = .eq then .null else value)⟩,
    ofOne "octet_length" byteSize,
    ofOne "quote" fun _ value => .text (literal value),
    simple "replace" 3 (some 3) replaced,
    simple "round" 1 (some 2) fun _ values => round values,
    ofOne "sign" fun _ value => sign value,
    simple "substr" 2 (some 3) fun storage values =>
      substring storage (values.headD .null) (values.getD 1 .null) values[2]?,
    simple "substring" 2 (some 3) fun storage values =>
      substring storage (values.headD .null) (values.getD 1 .null) values[2]?,
    ofOne "typeof" fun _ value => .text (Bytes.ofText (className value)),
    simple "unhex" 1 (some 2) unhex,
    ofOne "unicode" (onText fun text =>
      if text.untilZero = [] then .null else .integer (codePoint text)),
    ⟨"zeroblob", 1, some 1, true, .scalar fun _ _ values => zeroBytes (values.headD .null)⟩,
    ofRows "avg" 1 1 fun _ _ rows => .ok (mean rows),
    ofRows "count" 0 1 fun _ _ rows => .ok (count rows),
    ofRows "group_concat" 1 2 fun storage _ rows => .ok (grouped storage rows),
    ofRows "max" 1 1 fun _ collation rows => .ok (extremeOfRows .gt collation rows),
    ofRows "min" 1 1 fun _ collation rows => .ok (extremeOfRows .lt collation rows),
    ofRows "string_agg" 2 2 fun storage _ rows => .ok (grouped storage rows),
    ofRows "sum" 1 1 fun _ _ rows => sum rows,
    ofRows "total" 1 1 fun _ _ rows => .ok (total rows) ]

/-- Functions of one row that are only known by name. -/
def known : List (String × Nat × Option Nat × Bool) :=
  [ ("changes", 0, some 0, false), ("current_date", 0, some 0, false),
    ("current_time", 0, some 0, false), ("current_timestamp", 0, some 0, false),
    ("date", 0, none, true), ("datetime", 0, none, true), ("json", 1, some 1, true),
    ("json_array", 0, none, true), ("json_array_length", 1, some 2, true),
    ("json_error_position", 1, some 1, true), ("json_extract", 0, none, true),
    ("json_insert", 0, none, true), ("json_object", 0, none, true), ("json_patch", 2, some 2, true),
    ("json_quote", 1, some 1, true), ("json_remove", 0, none, true),
    ("json_replace", 0, none, true), ("json_set", 0, none, true), ("json_type", 1, some 2, true),
    ("json_valid", 1, some 2, true), ("jsonb", 1, some 1, true), ("jsonb_array", 0, none, true),
    ("jsonb_extract", 0, none, true), ("jsonb_insert", 0, none, true),
    ("jsonb_object", 0, none, true), ("jsonb_patch", 2, some 2, true),
    ("jsonb_remove", 0, none, true), ("jsonb_replace", 0, none, true),
    ("jsonb_set", 0, none, true), ("julianday", 0, none, true),
    ("last_insert_rowid", 0, some 0, false), ("load_extension", 1, some 2, false),
    ("match", 2, some 2, false), ("random", 0, some 0, false), ("randomblob", 1, some 1, false),
    ("soundex", 1, some 1, true), ("sqlite_compileoption_get", 1, some 1, false),
    ("sqlite_compileoption_used", 1, some 1, false), ("sqlite_log", 2, some 2, true),
    ("sqlite_source_id", 0, some 0, false), ("sqlite_version", 0, some 0, false),
    ("strftime", 0, none, true), ("subtype", 1, some 1, true), ("time", 0, none, true),
    ("timediff", 2, some 2, true), ("total_changes", 0, some 0, false),
    ("unixepoch", 0, none, true) ]

/-- Functions that stand over a window, and aggregates that are only known by name. -/
def others : List Function :=
  [ ⟨"cume_dist", 0, some 0, false, .window⟩, ⟨"dense_rank", 0, some 0, false, .window⟩,
    ⟨"first_value", 1, some 1, false, .window⟩, ⟨"lag", 1, some 3, false, .window⟩,
    ⟨"last_value", 1, some 1, false, .window⟩, ⟨"lead", 1, some 3, false, .window⟩,
    ⟨"nth_value", 2, some 2, false, .window⟩, ⟨"ntile", 1, some 1, false, .window⟩,
    ⟨"percent_rank", 0, some 0, false, .window⟩, ⟨"rank", 0, some 0, false, .window⟩,
    ⟨"row_number", 0, some 0, false, .window⟩,
    ⟨"json_group_array", 1, some 1, false, .unknownAggregate⟩,
    ⟨"json_group_object", 2, some 2, false, .unknownAggregate⟩,
    ⟨"jsonb_group_array", 1, some 1, false, .unknownAggregate⟩,
    ⟨"jsonb_group_object", 2, some 2, false, .unknownAggregate⟩ ]

def all : List Function :=
  evaluable ++
    known.map (fun (name, least, most, isDeterministic) =>
      ⟨name, least, most, isDeterministic, .unknownScalar⟩) ++
    others

def takes (function : Function) (count : Nat) : Bool :=
  function.least ≤ count && function.most.all (count ≤ ·)

def named (name : Bytes) : List Function :=
  all.filter fun function => isNamed name function.name

def isAggregate (function : Function) : Bool :=
  match function.kind with
  | .aggregate _ | .unknownAggregate | .window => true
  | _ => false

end Function

end ImageAudit.Sql
