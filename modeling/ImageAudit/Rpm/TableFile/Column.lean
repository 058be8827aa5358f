import ImageAudit.Rpm.TableFile.Tree

/-! # Columns of records

A record begins with its kinds of values, and the length of that part comes first. To reach a
column, the kinds up to it are read, and nothing else of the record is looked at. A record may be
too short to have the column. Where the kinds that were read do not fit the record, it is broken.
-/

namespace ImageAudit.Rpm.TableFile

/-- The greatest number of 32 bits, which stands for larger ones. -/
def maxWord : Nat := 0x100000000 - 1

/-- The number that begins the bytes, as far as it has 32 bits, and the bytes that it takes. Zeros
follow the bytes. -/
def readWord (data : Bytes) : Nat × Nat :=
  let data := data.take 9 ++ Bytes.zeros 9
  match readNumber? data with
  | some (value, rest) => (min value maxWord, data.length - rest.length)
  | none => (0, 1)

/-- The kinds of a record as far as they were read. -/
structure KindScan where
  /-- Where the next kind begins. -/
  offset : Nat
  /-- Where the values of the kinds end. -/
  contentEnd : Nat
  /-- The kinds with the places of their values, the last first. -/
  kinds : List (ValueKind × Nat)

namespace KindScan

/-- Reads another kind. -/
def step (header : Bytes) (scan : KindScan) : KindScan :=
  let (kind, size) := readWord (header.drop scan.offset)
  ⟨scan.offset + size, scan.contentEnd + ValueKind.length kind,
    (kind, scan.contentEnd) :: scan.kinds⟩

/-- Reads so many further kinds, or up to the end of the header. -/
def run (header : Bytes) (size : Nat) : Nat → KindScan → KindScan
  | 0, scan => scan
  | more + 1, scan => if scan.offset < size then run header size more (scan.step header) else scan

/-- Whether the kinds do not fit a record: they overrun their part, or their values overrun the
record or do not fill it. -/
def isBroken (scan : KindScan) (size length : Nat) : Bool :=
  size < scan.offset || length < scan.contentEnd ||
    (scan.offset = size && scan.contentEnd ≠ length)

end KindScan

namespace Cell

def maxHeader : Nat := 98307

/-- The value of a column; none if the record is too short for it. A record whose header is said to
be empty has no columns. -/
def column (file : TableFile) (storage : Sql.TextStorage) (cell : Cell) (position : Nat) :
    Except Fault (Option Sql.Value) := do
  let here := cell.node.page.slice cell.start (file.pageSize - cell.start)
  let available := cell.available file
  let (size, first) := readWord here
  if size = 0 then return none
  let isElsewhere := available < size
  if isElsewhere && (maxHeader < size || cell.length < size) then throw .record
  let header ← if isElsewhere then cell.bytes file size else pure here
  if isElsewhere && size ≤ first then return none
  let begun := KindScan.step header ⟨first, size, []⟩
  let scan := begun.run header size position
  if scan.isBroken size cell.length then throw .record
  match scan.kinds with
  | (kind, start) :: others =>
    if others.length < position then return none
    let length := ValueKind.length kind
    if length = 0 then return some (ValueKind.value kind storage [])
    let content ← cell.bytes file (start + length)
    return some (ValueKind.value kind storage (content.drop start))
  | [] => return none

end Cell

end ImageAudit.Rpm.TableFile
