import ImageAudit.Rpm.TableFile.Tree

/-! # Writing table files

The writer makes a table file of one table with a row number and one column of bytes. Each row has a
leaf of its own; what its record has too many bytes for follows in overflow pages. Above the leaves
stand as many levels of inner pages as it takes to reach a single root.
-/

namespace ImageAudit.Rpm.TableFile.Writer

def pageSize : Nat := 4096

/-- A written file with nothing in it but the measures of its pages. -/
def frame : TableFile := ⟨pageSize, 0, .utf8, true, 0, #[], ∅⟩

/-- A page that begins with the given bytes and ends with the others. -/
def page (first last : Bytes) : Bytes :=
  first ++ Bytes.zeros (pageSize - first.length - last.length) ++ last

/-- Where the cells of a page begin, in order, when they fill its end in order. -/
def cellOffsets (cells : List Bytes) : List Nat :=
  (List.range cells.length).map fun index => pageSize - ((cells.drop index).flatten).length

/-- A page of cells. `before` stands in front of its own header, and `child` is the last child of an
inner page. -/
def node (before : Bytes) (kind : Nat) (child : Bytes) (cells : List Bytes) : Bytes :=
  let offsets := cellOffsets cells
  page
    (before ++ [UInt8.ofNat kind, 0, 0] ++ Bytes.ofNatBE 2 cells.length ++
      Bytes.ofNatBE 2 (offsets.headD pageSize) ++ [0] ++ child ++
      offsets.flatMap (Bytes.ofNatBE 2))
    cells.flatten

/-- The cell of a row; its record goes on in a page, if that is needed. -/
def cell (row : Nat) (record : Bytes) (overflow : Nat) : Bytes :=
  let within := frame.inCell .rows record.length
  writeNumber record.length ++ writeNumber row ++ record.take within ++
    (if within < record.length then Bytes.ofNatBE 4 overflow else [])

/-- Overflow pages for some parts of a record, numbered from `first` on. -/
def overflowPages : Nat → List Bytes → List Bytes
  | _, [] => []
  | first, part :: rest =>
    page (Bytes.ofNatBE 4 (if rest = [] then 0 else first + 1) ++ part) [] ::
      overflowPages (first + 1) rest

/-- The pages of a row, numbered from `first` on: its leaf and what overflows. -/
def rowPages (first row : Nat) (value : Bytes) : List Bytes :=
  let record := Record.write [StoredValue.null, StoredValue.ofBytes value]
  let parts := Bytes.chunks frame.overflowCapacity (record.drop (frame.inCell .rows record.length))
  node [] TreeKind.rows.leafPage [] [cell row record (first + 1)] :: overflowPages (first + 1) parts.toList

/-- A part of the tree: its highest page and the number of its last row. -/
structure Subtree where
  root : Nat
  lastRow : Nat

/-- The pages of all rows, numbered from `first` on, and the leaves. -/
def leaves (first row : Nat) : List Bytes → List Bytes × List Subtree
  | [] => ([], [])
  | value :: rest =>
    let pages := rowPages first row value
    let (more, trees) := leaves (first + pages.length) (row + 1) rest
    (pages ++ more, ⟨first, row⟩ :: trees)

def maxChildren : Nat := 200

/-- An inner page above some parts of the tree. -/
def innerPage (trees : List Subtree) : Bytes :=
  let child := Bytes.ofNatBE 4 ((trees.map (·.root)).getLastD 0)
  node [] TreeKind.rows.innerPage child (trees.dropLast.map fun tree =>
    Bytes.ofNatBE 4 tree.root ++ writeNumber tree.lastRow)

/-- The next pages and parts above groups of parts. A part that is alone stays as it is. -/
def level (first : Nat) : List (List Subtree) → List Bytes × List Subtree
  | [] => ([], [])
  | [tree] :: rest =>
    let (pages, trees) := level first rest
    (pages, tree :: trees)
  | group :: rest =>
    let (pages, trees) := level (first + 1) rest
    (innerPage group :: pages, ⟨first, (group.map (·.lastRow)).getLastD 0⟩ :: trees)

/-- The items in groups of at most `size`. The fuel bounds their number. -/
def grouped (size : Nat) : Nat → List α → List (List α)
  | 0, _ => []
  | _, [] => []
  | fuel + 1, items => items.take size :: grouped size fuel (items.drop size)

/-- The pages above some parts of the tree, and the root. The fuel bounds the levels. -/
def join : Nat → Nat → List Subtree → List Bytes × Nat
  | _, first, [] => ([node [] TreeKind.rows.leafPage [] []], first)
  | _, _, [tree] => ([], tree.root)
  | 0, _, tree :: _ => ([], tree.root)
  | fuel + 1, first, trees =>
    let (pages, above) := level first (grouped maxChildren trees.length trees)
    let (more, root) := join fuel (first + pages.length) above
    (pages ++ more, root)

/-- The header of a file with the given number of pages. -/
def header (pages : Nat) : Bytes :=
  let word := Bytes.ofNatBE 4
  magic ++ Bytes.ofNatBE 2 pageSize ++ [1, 1, 0, 64, 32, 32] ++ word 1 ++ word pages ++
    [0, 0, 1, 4, 0, 0, 1].flatMap word ++ Bytes.zeros 32 ++ word 1 ++ word 3045000

def tableRow (table column : String) (root : Nat) : Bytes :=
  Record.write [.ofText "table", .ofText table, .ofText table, .ofNat root,
    .ofText ("CREATE TABLE " ++ table ++ " (hnum INTEGER PRIMARY KEY, " ++ column ++
      " BLOB NOT NULL)")]

/-- The bytes of a table file that holds the values in order. -/
def encode (table column : String) (values : List Bytes) : Bytes :=
  let (rows, trees) := leaves 2 1 values
  let (above, root) := join trees.length (2 + rows.length) trees
  node (header (1 + rows.length + above.length)) TreeKind.rows.leafPage []
      [cell 1 (tableRow table column root) 0] ++
    rows.flatten ++ above.flatten

end ImageAudit.Rpm.TableFile.Writer
