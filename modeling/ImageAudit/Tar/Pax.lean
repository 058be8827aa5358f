import ImageAudit.Text.Utf8

/-! # Records for the next entry

Records are lines of the form `LENGTH KEY=VALUE`, where the length is that of the whole line with
its line feed. They end at the first empty line.
-/

namespace ImageAudit.Tar

structure PaxRecord where
  key : Bytes
  value : Bytes
  deriving DecidableEq, Repr

namespace PaxRecord

/-- The number that decimal digits write: a plus sign may stand in front, and 64 bits must hold
it. -/
def decimal? (text : Bytes) : Option Nat :=
  let digits := if text.head? = some 0x2B then text.drop 1 else text
  if digits = [] ∨ digits.any (fun byte => byte < 0x30 || 0x39 < byte) then none
  else
    let value := digits.foldl (fun value byte => value * 10 + (byte.toNat - 48)) 0
    if value < 0x10000000000000000 then some value else none

/-- The record that a line holds, if the line is well formed. -/
def ofLine? (line : Bytes) : Option PaxRecord :=
  let length := line.takeWhile (· != 0x20)
  let body := line.drop (length.length + 1)
  let key := body.takeWhile (· != 0x3D)
  if length.length < line.length ∧ decimal? length = some (line.length + 1) ∧
      key.length < body.length then
    some ⟨key, body.drop (key.length + 1)⟩
  else none

/-- The lines of the records; none for a line that is not well formed. -/
def linesOf (data : Bytes) : List (Option PaxRecord) :=
  ((data.splitOn 0x0A).takeWhile (· != [])).map ofLine?

/-- The value of the first record with a key. -/
def find? (data : Bytes) (key : String) : Option Bytes :=
  (((linesOf data).filterMap id).find? (·.key = Bytes.ofText key)).map (·.value)

/-- The length that the records give the data of the entry: the first such record, if it is a number
and no line before it is broken. -/
def size? (data : Bytes) : Option Nat :=
  let sound := ((linesOf data).takeWhile (·.isSome)).filterMap id
  (sound.find? (·.key = Bytes.ofText "size")).bind fun record => decimal? record.value

end PaxRecord

end ImageAudit.Tar
