/-! # JSON values

Numbers are whole numbers of 64 bits or `real`: no record of the library holds any other number,
so its value is not kept. A string or key whose escapes leave half of a surrogate pair, or whose
bytes are no UTF-8, is kept as broken text. Members keep their order, and a key may repeat.
-/

namespace ImageAudit.Json

/-- The content of a string; none when it is broken. -/
abbrev Text := Option String

inductive Value where
  | null
  | bool (value : Bool)
  | integer (value : Int)
  /-- A number with a fraction or an exponent, a zero with a sign, or one beyond 64 bits. -/
  | real
  | text (content : Text)
  | array (items : List Value)
  | object (members : List (Text × Value))

namespace Value

def str (content : String) : Value := text (some content)

def nat (value : Nat) : Value := integer value

def record (members : List (String × Value)) : Value :=
  object (members.map fun (key, value) => (some key, value))

/-- The written form of something that may be missing. -/
def nullable (write : α → Value) : Option α → Value
  | some value => write value
  | none => null

def list (write : α → Value) (items : List α) : Value := array (items.map write)

end Value

end ImageAudit.Json
