import ImageAudit.Text.Utf8
import ImageAudit.Yaml.Node

/-! # Values out of YAML

What a plain scalar means depends on what is wanted: any scalar will do for a text, while numbers
and truth values must be plain and of the exact form. A mapping or sequence that is not there is
empty. A block of lines stands for a number or truth value only under the tag of that type. Aliases
are followed where a value is wanted.
-/

namespace ImageAudit.Yaml

/-- The tag of a type that every document knows. -/
def coreTag (name : String) : Bytes := Bytes.ofText ("tag:yaml.org,2002:" ++ name)

/-- Whether a plain text is written for nothing. -/
def isNullWord (text : String) : Bool := ["null", "Null", "NULL", "~"].contains text

def boolOf? (text : String) : Option Bool :=
  if ["true", "True", "TRUE"].contains text then some true
  else if ["false", "False", "FALSE"].contains text then some false
  else none

/-- The number below `limit` that digits of a base write. -/
def numberIn? (base limit : Nat) (digits : List Char) : Option Nat := do
  let values ← digits.mapM Hex.value?
  let value := values.foldl (fun value digit => value * base + digit) 0
  if digits = [] ∨ values.any (base ≤ ·) ∨ limit ≤ value then failure
  return value

/-- The number below `limit` that a text writes: in decimal digits without a zero in front, or in
another base after the mark of that base. A plus sign may stand in front. -/
def numberOf? (limit : Nat) (text : String) : Option Nat :=
  let digits := (Text.stripStart? text "+").getD text
  match digits.toList with
  | '0' :: 'x' :: rest => numberIn? 16 limit rest
  | '0' :: 'o' :: rest => numberIn? 8 limit rest
  | '0' :: 'b' :: rest => numberIn? 2 limit rest
  | '0' :: _ :: _ => none
  | digits => numberIn? 10 limit digits

namespace Document

def asText? (document : Document) (node : Node) : Option String :=
  match document.follow node with
  | .scalar _ _ text => some text
  | _ => none

/-- The text of a scalar that is plain, or a block of lines under the tag of the wanted type. -/
def asPlainText? (document : Document) (type : String) (node : Node) : Option String :=
  match document.follow node with
  | .scalar _ .plain text => some text
  | .scalar (some tag) .literal text => if tag = coreTag type then some text else none
  | _ => none

def asBool? (document : Document) (node : Node) : Option Bool :=
  (document.asPlainText? "bool" node).bind boolOf?

def asUInt64? (document : Document) (node : Node) : Option UInt64 :=
  ((document.asPlainText? "int" node).bind (numberOf? 0x10000000000000000)).map UInt64.ofNat

def asList? (document : Document) (item? : Node → Option α) (node : Node) : Option (List α) :=
  match document.follow node with
  | .sequence _ items => items.mapM item?
  | .scalar _ .plain "" => some []
  | _ => none

/-- Nothing for a null, else the value read. -/
def asNullable? (document : Document) (value? : Node → Option α) (node : Node) :
    Option (Option α) :=
  match document.follow node with
  | .scalar none .plain text =>
    if text = "" ∨ isNullWord text then some none else (value? node).map some
  | .scalar (some tag) .plain text =>
    if tag = coreTag "null" then (if isNullWord text then some none else none)
    else (value? node).map some
  | _ => (value? node).map some

/-- The pairs of a mapping whose keys are scalars. -/
def asPairs? (document : Document) (node : Node) : Option (List (String × Node)) :=
  match document.follow node with
  | .mapping _ pairs => pairs.mapM fun (key, value) => do return (← document.asText? key, value)
  | .scalar _ .plain "" => some []
  | _ => none

/-- One of some names. It is the tag of a null, if the tag is one of the document's own and text, or
else the text of a scalar. -/
def asName? (document : Document) (node : Node) : Option String :=
  match document.follow node with
  | .scalar (some (0x21 :: name)) style text =>
    match Utf8.strict? name with
    | some name => if style = .plain ∧ (text = "" ∨ isNullWord text) then some name else none
    | none => some text
  | .scalar _ _ text => some text
  | _ => none

end Document

/-- The value of a field, which must not be there twice. -/
def field? (pairs : List (String × Node)) (name : String) : Option (Option Node) :=
  match pairs.filter fun pair => pair.1 = name with
  | [] => some none
  | [(_, value)] => some (some value)
  | _ => none

def required? (pairs : List (String × Node)) (name : String) (value? : Node → Option α) :
    Option α := do
  value? (← ← field? pairs name)

def withDefault? (pairs : List (String × Node)) (name : String) (value? : Node → Option α)
    (default : α) : Option α := do
  match ← field? pairs name with
  | some value => value? value
  | none => some default

end ImageAudit.Yaml
