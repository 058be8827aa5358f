import ImageAudit.Feed
import ImageAudit.Rpm.TableFile.Log
import ImageAudit.Rpm.TableFile.Record
import Std.Data.TreeMap

/-! # Pages and trees of a table file

The first page begins with a header that gives the size of all pages. Where a log holds new contents
of pages, those count. A table is a tree of pages: inner pages list their children, leaves list
cells, each with the record of one row, all in the order of row numbers. An index is a tree, too,
with an entry in each cell, also in those between the children of inner pages. Of a record that is
too large for its page, the rest lies in a chain of overflow pages.
-/

namespace ImageAudit.Rpm

inductive TextEncoding where
  | utf8
  | utf16 (order : ByteOrder)
  deriving DecidableEq, Repr

/-- The encoding that a number in the header stands for. -/
def TextEncoding.ofNat (number : Nat) : TextEncoding :=
  match number % 4 with
  | 2 => utf16 .little
  | 3 => utf16 .big
  | _ => utf8

structure TableFile where
  pageSize : Nat
  /-- The bytes at the end of each page that hold no cells. -/
  reserved : Nat
  encoding : TextEncoding
  /-- Whether the file may be changed. -/
  isWritable : Bool
  pageCount : Nat
  /-- The bytes of the file, page by page; the last may be short. -/
  stored : Array Bytes
  /-- The pages whose contents the log replaces. -/
  replaced : Std.TreeMap Nat Page

namespace TableFile

/-- The bytes of the header in the first page. -/
def headerSize : Nat := 100

def magic : Bytes := Bytes.ofText "SQLite format 3" ++ [0]

/-- The size of pages that the first page gives. -/
def statedPageSize (first : Bytes) : Nat :=
  let size := Bytes.natBE (first.slice 16 2)
  if size = 1 then 65536 else size

/-- Whether a first page is that of a table file. -/
def isHeader (first : Bytes) : Bool :=
  magic.isPrefixOf first && first.getD 19 0 ≤ 2 && first.slice 21 3 == [64, 32, 32] &&
    Log.isPageSize (statedPageSize first) &&
    480 + (first.getD 20 0).toNat ≤ statedPageSize first &&
    first.getD 47 0 ≤ 4

/-- The first page, where the log may replace that of the file. -/
def firstPage (data : Bytes) (log : List LogEntry) : Bytes :=
  match log.reverse.find? fun entry => entry.page = 1 with
  | some entry => entry.content
  | none => data

/-- The number of pages that the header gives, if it was written by who wrote the file last. -/
def statedPageCount? (first : Bytes) : Option Nat :=
  let count := Bytes.natBE (first.slice 28 4)
  if count ≠ 0 ∧ first.slice 24 4 = first.slice 92 4 then some count else none

/-- A page with zeros for what is not there of it. -/
def filled (size : Nat) (content : Bytes) : Page :=
  (content ++ Bytes.zeros (size - content.length)).toArray

def parse (data logData : Bytes) : Except Fault TableFile := do
  let log ← if data = [] then pure [] else Log.entries logData
  let first := firstPage data log
  if !isHeader first then throw .notTableFile
  let size := statedPageSize first
  let present := match log.getLast? with
    | some entry => entry.pageCount
    | none => (data.length + size - 1) / size
  let count := (statedPageCount? first).getD present
  if present < count then throw (.pageMissing count present)
  return {
    pageSize := size
    reserved := (first.getD 20 0).toNat
    encoding := TextEncoding.ofNat (first.getD 59 0).toNat
    isWritable := first.getD 18 0 ≤ 2
    pageCount := count
    stored := Bytes.chunks size data
    replaced :=
      log.foldl (fun pages entry => pages.insert entry.page (filled size entry.content)) ∅ }

/-- The bytes of a page that may hold cells. -/
def usableSize (file : TableFile) : Nat := file.pageSize - file.reserved

/-- A page; the first is number one. What the file lacks of its last page counts as zeros. -/
def page (file : TableFile) (number : Nat) : Except Fault Page :=
  if number = 0 ∨ file.pageCount < number then .error (.pageMissing number file.pageCount)
  else
    .ok (file.replaced.getD number (filled file.pageSize (file.stored.getD (number - 1) [])))

/-- What a tree holds: the rows of a table by their numbers, or entries by their keys. -/
inductive TreeKind where
  | rows
  | entries
  deriving DecidableEq, Repr

namespace TreeKind

def innerPage : TreeKind → Nat
  | rows => 5
  | entries => 2

def leafPage : TreeKind → Nat
  | rows => 13
  | entries => 10

end TreeKind

structure Node where
  kind : TreeKind
  number : Nat
  page : Page
  isLeaf : Bool
  cellCount : Nat

namespace Node

/-- Where the node's own header begins: the first page has that of the file in front. -/
def start (node : Node) : Nat := if node.number = 1 then headerSize else 0

def headerLength (node : Node) : Nat := if node.isLeaf then 8 else 12

def short (node : Node) (offset : Nat) : Nat := (node.page.slice offset 2).natBE

def word (node : Node) (offset : Nat) : Nat := (node.page.slice offset 4).natBE

def cellOffsets (file : TableFile) (node : Node) : List Nat :=
  (List.range node.cellCount).map fun index =>
    node.short (node.start + node.headerLength + 2 * index) % file.pageSize

def lastChild (node : Node) : Nat := node.word (node.start + 8)

end Node

def node (file : TableFile) (kind : TreeKind) (number : Nat) : Except Fault Node := do
  let page ← file.page number
  let start := if number = 1 then headerSize else 0
  let found := page.byteAt start
  if found ≠ kind.innerPage ∧ found ≠ kind.leafPage then throw (.pageKind number found)
  let count := (page.slice (start + 3) 2).natBE
  if (file.pageSize - 8) / 6 < count then throw (.cellCount number count)
  return ⟨kind, number, page, found = kind.leafPage, count⟩

/-! ## Cells -/

/-- The most bytes of a record that lie in its cell. -/
def maxInCell (file : TableFile) : TreeKind → Nat
  | .rows => file.usableSize - 35
  | .entries => (file.usableSize - 12) * 64 / 255 - 23

/-- The bytes of a record that an overflow page holds. -/
def overflowCapacity (file : TableFile) : Nat := file.usableSize - 4

/-- How many bytes of a record of the given length lie in its cell. What lies elsewhere then fills
its pages if the cell can hold the remainder. -/
def inCell (file : TableFile) (kind : TreeKind) (length : Nat) : Nat :=
  if length ≤ file.maxInCell kind then length
  else
    let least := (file.usableSize - 12) * 32 / 255 - 23
    let filling := least + (length - least) % file.overflowCapacity
    if filling ≤ file.maxInCell kind then filling else least

/-- Whether the file or the log has the first bytes of a page. -/
def hasBytes (file : TableFile) (number count : Nat) : Bool :=
  file.replaced.contains number || count ≤ (file.stored.getD (number - 1) []).length

/-- The parts of a record of which `needed` bytes lie in a chain that begins at page `next`. The
fuel bounds the pages of the chain. -/
def chain (file : TableFile) : Nat → Nat → Nat → Except Fault (List Bytes)
  | _, _, 0 => .ok []
  | 0, next, _ => .error (.chainTooShort next)
  | fuel + 1, next, needed + 1 =>
    if next = 0 then .error (.chainTooShort next)
    else do
      let page ← file.page next
      let part := page.slice 4 (min (needed + 1) file.overflowCapacity)
      if !file.hasBytes next (4 + part.length) then throw (.chainTooShort next)
      return part :: (← chain file fuel (page.slice 0 4).natBE (needed + 1 - part.length))

/-- A cell: the record of a row, or an entry. -/
structure Cell where
  /-- The number of the row; zero for an entry. -/
  number : Int
  /-- The length of the record. -/
  length : Nat
  node : Node
  /-- Where the record begins in its page. -/
  start : Nat

namespace Cell

/-- How many bytes of the record lie in the page. -/
def available (file : TableFile) (cell : Cell) : Nat :=
  min (file.inCell cell.node.kind cell.length) (file.pageSize - cell.start)

/-- The first bytes of the record, which may go on in other pages. -/
def bytes (file : TableFile) (cell : Cell) (count : Nat) : Except Fault Bytes := do
  if count ≤ cell.available file then return cell.node.page.slice cell.start count
  let within := file.inCell cell.node.kind cell.length
  if file.usableSize < cell.start + within then throw (.cellOverruns cell.node.number)
  if file.pageSize * file.pageCount < count then
    throw (.valueTooLong cell.node.number cell.length)
  let parts ← file.chain count (cell.node.word (cell.start + within)) (count - within)
  return cell.node.page.slice cell.start within ++ parts.flatten

end Cell

/-- The length of a record that begins the bytes, after a beginning of it, and what follows. All
bytes of the number give seven bits, and at most `more` of them are left. -/
def readLengthAfter : Nat → Nat → Bytes → Option (Nat × Bytes)
  | _, _, [] => none
  | 0, _, _ :: _ => none
  | more + 1, high, byte :: rest =>
    let value := (high * 128 + byte.toNat % 128) % 0x100000000
    if byte.toNat < 128 ∨ more = 0 then some (value, rest)
    else readLengthAfter more value rest

/-- The length of a record that begins the bytes, and what follows. -/
def readLength? (data : Bytes) : Option (Nat × Bytes) := readLengthAfter 9 0 data

/-- The cell of a node that begins at an offset. In an inner node a child stands in front. -/
def cell (file : TableFile) (node : Node) (offset : Nat) : Except Fault Cell := do
  let overruns : Fault := .cellOverruns node.number
  let offset := if node.isLeaf then offset else offset + 4
  let content := node.page.slice offset (file.pageSize - offset)
  let some (length, afterLength) := readLength? content | throw overruns
  match node.kind with
  | .entries => return ⟨0, length, node, file.pageSize - afterLength.length⟩
  | .rows =>
    let some (number, record) := readNumber? afterLength | throw overruns
    return ⟨Bytes.signed 8 number, length, node, file.pageSize - record.length⟩

/-! ## Trees -/

/-- The cells below a page, in order. Entries stand in inner pages, too. The pages lie at most
`depth` deep. -/
def cellsBelow (file : TableFile) : Nat → Node → Feed Fault Cell
  | 0, node => .failed (.tooDeep node.number)
  | depth + 1, node =>
    let own (offset : Nat) : Feed Fault Cell := .ofExcept ((file.cell node offset).map ([·]))
    let below (child : Nat) : Feed Fault Cell :=
      match file.node node.kind child with
      | .error fault => .failed fault
      | .ok child =>
        if child.cellCount = 0 then .failed (.cellCount child.number 0)
        else cellsBelow file depth child
    let offsets := node.cellOffsets file
    if node.isLeaf then (Feed.ofList offsets).bind own
    else
      (Feed.ofList (offsets.map some ++ [none])).bind fun
        | some offset =>
          match node.kind with
          | .rows => below (node.word offset)
          | .entries => (below (node.word offset)).append fun _ => own offset
        | none => below node.lastChild

/-- The greatest number of pages above one another in a tree. -/
def maxDepth : Nat := 20

/-- The greatest number of a row below a child of an inner node, which stands behind the child. -/
def greatestBelow (node : Node) (offset : Nat) : Except Fault Int :=
  match readNumber? (node.page.slice (offset + 4) 9) with
  | some (number, _) => .ok (Bytes.signed 8 number)
  | none => .error (.cellOverruns node.number)

/-- The cell of the row of a number below a page. The pages lie at most `depth` deep. -/
def rowCellBelow? (file : TableFile) (number : Int) : Nat → Node → Except Fault (Option Cell)
  | 0, node => .error (.tooDeep node.number)
  | depth + 1, node => do
    let offsets := node.cellOffsets file
    if node.isLeaf then
      let cells ← offsets.mapM (file.cell node)
      return cells.find? fun cell => cell.number = number
    else
      let bounds ← offsets.mapM fun offset => return (offset, ← greatestBelow node offset)
      let child := match bounds.find? fun (_, greatest) => number ≤ greatest with
        | some (offset, _) => node.word offset
        | none => node.lastChild
      rowCellBelow? file number depth (← file.node node.kind child)

/-- The cell of the row of a number, in the tree that begins at a page. -/
def rowCell? (file : TableFile) (root : Nat) (number : Int) : Except Fault (Option Cell) := do
  file.rowCellBelow? number maxDepth (← file.node .rows root)

/-- The cells of the tree that begins at a page, in order. -/
def cells (file : TableFile) (kind : TreeKind) (root : Nat) : Feed Fault Cell :=
  match file.node kind root with
  | .error fault => .failed fault
  | .ok node =>
    if !node.isLeaf && node.cellCount = 0 && root ≠ 1 then .failed (.cellCount root 0)
    else file.cellsBelow maxDepth node

end TableFile

end ImageAudit.Rpm
