import ImageAudit.Json.Value

/-! # Records out of JSON

A record is an object, or an array of its fields in order. In an object unknown keys are passed
over, and a known key must not repeat; an array must not be longer than the record. What a field
that is not there means depends on the field: it may be required, it may be nothing, or it may have
a default. A field that may be nothing must still be in an array, unless it has a default.
-/

namespace ImageAudit.Json

/-- What a record has for a field. -/
inductive Slot where
  | given (value : Value)
  /-- The object has no such key. -/
  | missing
  /-- The array ends before the field. -/
  | beyond

/-- The member with a key, which must not be there twice. -/
def memberSlot? (members : List (Text × Value)) (name : String) : Option Slot :=
  match members.filter (fun member => member.1 = some name) with
  | [] => some .missing
  | [member] => some (.given member.2)
  | _ => none

namespace Value

/-- What the value has for each of the named fields, when it is a record of that form. -/
def fields? (names : List String) : Value → Option (List Slot)
  | object members =>
    if members.any (fun member => member.1.isNone) then none
    else names.mapM (memberSlot? members)
  | array items =>
    if names.length < items.length then none
    else some (items.map Slot.given ++ List.replicate (names.length - items.length) .beyond)
  | _ => none

/-- The member of an object with a key; the last one counts. -/
def member? (value : Value) (name : String) : Option Value :=
  match value with
  | object members => (members.reverse.find? fun member => member.1 = some name).map (·.2)
  | _ => none

def asString? : Value → Option String
  | text content => content
  | _ => none

def asBool? : Value → Option Bool
  | bool value => some value
  | _ => none

/-- A whole number between the bounds, the upper one left out. -/
def asIntBetween? (low high : Int) : Value → Option Int
  | integer value => if low ≤ value ∧ value < high then some value else none
  | _ => none

def asUInt32? (value : Value) : Option UInt32 :=
  (value.asIntBetween? 0 0x100000000).map fun n => UInt32.ofNat n.toNat

def asUInt64? (value : Value) : Option UInt64 :=
  (value.asIntBetween? 0 0x10000000000000000).map fun n => UInt64.ofNat n.toNat

def asInt32? (value : Value) : Option Int32 :=
  (value.asIntBetween? (-0x80000000) 0x80000000).map Int32.ofInt

def asInt64? (value : Value) : Option Int64 :=
  (value.asIntBetween? (-0x8000000000000000) 0x8000000000000000).map Int64.ofInt

def asList? (item? : Value → Option α) : Value → Option (List α)
  | array items => items.mapM item?
  | _ => none

/-- Nothing for null, else the value read. -/
def asNullable? (value? : Value → Option α) : Value → Option (Option α)
  | null => some none
  | value => (value? value).map some

/-- The pairs of an object whose values are strings. Of equal keys the last counts. -/
def asStringMap? : Value → Option (List (String × String))
  | object members => do
    let pairs ← members.mapM fun (key, value) => do return (← key, ← value.asString?)
    return pairs.foldl (fun kept pair => kept.filter (·.1 != pair.1) ++ [pair]) []
  | _ => none

end Value

namespace Slot

def required? (value? : Value → Option α) : Slot → Option α
  | given value => value? value
  | _ => none

/-- The value of a field that may be null, or missing from an object. -/
def optional? (value? : Value → Option α) : Slot → Option (Option α)
  | given value => value.asNullable? value?
  | missing => some none
  | beyond => none

def withDefault? (value? : Value → Option α) (default : α) : Slot → Option α
  | given value => value? value
  | _ => some default

end Slot

end ImageAudit.Json
