import ImageAudit.Json.Value
import ImageAudit.Text.Hex

/-! # Writing JSON

Values are written without white space. In strings the quote, the backslash and control characters
are escaped, by letter where there is one. A number that was not kept is written as null, and broken
text as an empty string: the library makes neither.
-/

namespace ImageAudit.Json

/-- The written form of one character of a string. -/
def escape (c : Char) : List Char :=
  if c = '"' then ['\\', '"']
  else if c = '\\' then ['\\', '\\']
  else if c = '\x08' then ['\\', 'b']
  else if c = '\x0C' then ['\\', 'f']
  else if c = '\n' then ['\\', 'n']
  else if c = '\r' then ['\\', 'r']
  else if c = '\t' then ['\\', 't']
  else if c.toNat < 32 then
    ['\\', 'u', '0', '0', Hex.digit (c.toNat / 16), Hex.digit (c.toNat % 16)]
  else [c]

def quote (content : String) : String :=
  String.ofList ('"' :: content.toList.flatMap escape ++ ['"'])

mutual

def write : Value → String
  | .null => "null"
  | .bool true => "true"
  | .bool false => "false"
  | .integer value => toString value
  | .real => "null"
  | .text content => quote (content.getD "")
  | .array items => "[" ++ ",".intercalate (writeItems items) ++ "]"
  | .object members => "\x7b" ++ ",".intercalate (writeMembers members) ++ "\x7d"

/-- The written forms of the items of an array. -/
def writeItems : List Value → List String
  | [] => []
  | item :: rest => write item :: writeItems rest

/-- The written forms of the members of an object. -/
def writeMembers : List (Text × Value) → List String
  | [] => []
  | (key, value) :: rest => (quote (key.getD "") ++ ":" ++ write value) :: writeMembers rest

end

end ImageAudit.Json
