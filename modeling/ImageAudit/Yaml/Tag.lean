import ImageAudit.Text.Hex
import ImageAudit.Yaml.Cursor
import ImageAudit.Yaml.Token

/-! # Names, tags and directives of a YAML document

A node may have a name, under which it can be repeated, and a tag, which gives its type. A tag is
written in full or with a handle that stands for its beginning. Directives in front of a document
declare its version and its handles.
-/

namespace ImageAudit.Yaml

/-! ## Names -/

/-- Reads the name after the mark of an anchor or alias. It ends where no name could go on. -/
def readName? (cursor : Cursor) : Option (String × Cursor) :=
  let (name, after) := (cursor.skip 1).takeWhile isNameChar
  let ends := isGap after.head? ||
    after.head?.any fun c => "?:,]\x7d%@\x60".toList.contains c
  if name ≠ [] ∧ ends then some (String.ofList name, after) else none

/-! ## Tags -/

/-- How many bytes a character takes that begins with the byte. -/
def sizeFromLead? (lead : Nat) : Option Nat :=
  if lead < 128 then some 1
  else if lead / 32 = 6 then some 2
  else if lead / 16 = 14 then some 3
  else if lead / 8 = 30 then some 4
  else none

/-- The byte that an escape writes. -/
def escapedByte? : List Char → Option UInt8
  | '%' :: high :: low :: _ => do return UInt8.ofNat ((← Hex.value? high) * 16 + (← Hex.value? low))
  | _ => none

/-- The bytes that a number of escapes write, which go on a character. -/
def escapedTail? : Nat → List Char → Option Bytes
  | 0, _ => some []
  | count + 1, text => do
    let byte ← escapedByte? text
    if byte.toNat / 64 ≠ 2 then failure
    return byte :: (← escapedTail? count (text.drop 3))

/-- The bytes of one character that is written in escapes. -/
def escapedChar? (text : List Char) : Option Bytes := do
  let lead ← escapedByte? text
  return lead :: (← escapedTail? ((← sizeFromLead? lead.toNat) - 1) (text.drop 3))

/-- A character that a tag may hold; some only where the end of the tag is marked. -/
def isTagChar (isEndMarked : Bool) (c : Char) : Bool :=
  isNameChar c || ";/?:@&=+$.%!~*'()".toList.contains c || (isEndMarked && ",[]".toList.contains c)

/-- Reads the bytes of a tag. The fuel bounds their number. -/
def readTagBytes (isEndMarked : Bool) : Nat → Bytes → Cursor → Option (Bytes × Cursor)
  | 0, read, cursor => some (read, cursor)
  | fuel + 1, read, cursor =>
    match cursor.head? with
    | none => some (read, cursor)
    | some c =>
      if !isTagChar isEndMarked c then some (read, cursor)
      else if c = '%' then do
        let bytes ← escapedChar? cursor.rest
        readTagBytes isEndMarked fuel (read ++ bytes) (cursor.skip (3 * bytes.length))
      else
        readTagBytes isEndMarked fuel (read ++ Bytes.ofText (String.singleton c)) (cursor.skip 1)

/-- Reads the rest of a tag after a beginning that was read before; together they must not be empty.
A zero byte ends the tag, whatever is written after it. -/
def readTagRest? (isEndMarked : Bool) (read : String) (cursor : Cursor) :
    Option (Bytes × Cursor) := do
  let (bytes, after) ← readTagBytes isEndMarked cursor.rest.length [] cursor
  if read = "" ∧ bytes = [] then failure
  return ((Bytes.ofText read).drop 1 ++ bytes.untilZero, after)

/-- Reads a handle: an exclamation mark, and with a name after it another one if it is there. -/
def readHandle? (cursor : Cursor) : Option (String × Cursor) :=
  if !cursor.sees '!' then none
  else
    let (name, after) := (cursor.skip 1).takeWhile isNameChar
    let (ending, after) := if after.sees '!' then (['!'], after.skip 1) else ([], after)
    some (String.ofList ('!' :: name ++ ending), after)

/-- Whether what was read as a handle is one that stands for a beginning. -/
def isWholeHandle (handle : String) : Bool := handle != "!" && Text.endsWith handle "!"

def readTagText? (cursor : Cursor) : Option (TagText × Cursor) :=
  if cursor.ahead? 1 = some '<' then do
    let (suffix, after) ← readTagRest? true "" (cursor.skip 2)
    if !after.sees '>' then failure
    return (⟨"", suffix⟩, after.skip 1)
  else do
    let (handle, after) ← readHandle? cursor
    if isWholeHandle handle then
      let (suffix, after) ← readTagRest? false "" after
      return (⟨handle, suffix⟩, after)
    else
      let (suffix, after) ← readTagRest? false handle after
      return (if suffix = [] then ⟨"", Bytes.ofText "!"⟩ else ⟨"!", suffix⟩, after)

/-- Reads a tag, which must be set off from what follows. -/
def readTag? (inFlow : Bool) (cursor : Cursor) : Option (TagText × Cursor) := do
  let (tag, after) ← readTagText? cursor
  if isGap after.head? || (inFlow && after.sees ',') then return (tag, after) else failure

/-! ## Directives -/

/-- Reads a number of a version, of nine digits at most. -/
def readVersionPart? (cursor : Cursor) : Option (Nat × Cursor) :=
  let (digits, after) := cursor.takeWhile isDigit
  if digits = [] ∨ 9 < digits.length then none
  else some (digits.foldl (fun value c => value * 10 + (c.toNat - 48)) 0, after)

def readVersion? (cursor : Cursor) : Option (Token × Cursor) := do
  let (major, cursor) ← readVersionPart? cursor
  if !cursor.sees '.' then failure
  let (minor, cursor) ← readVersionPart? (cursor.skip 1)
  return (.version major minor, cursor)

def readHandleMeaning? (cursor : Cursor) : Option (Token × Cursor) := do
  let (handle, cursor) ← readHandle? cursor
  if handle ≠ "!" ∧ !Text.endsWith handle "!" then failure
  if !cursor.head?.any isBlank then failure
  let (meaning, cursor) ← readTagRest? true "" (cursor.skipWhile isBlank)
  if !isGap cursor.head? then failure
  return (.handle handle meaning, cursor)

/-- Reads a directive with the rest of its line. -/
def readDirective? (cursor : Cursor) : Option (Token × Cursor) := do
  let (name, after) := (cursor.skip 1).takeWhile isNameChar
  if !isGap after.head? then failure
  let after := after.skipWhile isBlank
  let (token, after) ←
    if name = "YAML".toList then readVersion? after
    else if name = "TAG".toList then readHandleMeaning? after
    else none
  return (token, ← after.skipLineRest?)

end ImageAudit.Yaml
