import ImageAudit.Rpm.TableFile.Column
import ImageAudit.Sql.Catalog.Schema
import ImageAudit.Text.Utf16
import ImageAudit.Text.Utf8

/-! # Queries of a table file

The tree that begins at the first page lists what is in the file. From that list comes the catalog,
and with it queries are answered from the other trees.
-/

namespace ImageAudit.Rpm

namespace TextEncoding

/-- A text as it is stored, for the way in which the texts of a file are stored. -/
def storage : TextEncoding → Sql.TextStorage
  | utf8 => .plain
  | utf16 order =>
    { encode := fun text =>
        (Utf16.units (Utf8.lossy text)).flatMap fun unit => Bytes.ofNatIn order 2 unit
      decode := fun text =>
        let units := (Bytes.chunks 2 text).toList.filter fun pair => pair.length = 2
        Bytes.ofText (Utf16.lossy (units.map (Bytes.natIn order))) }

end TextEncoding

namespace TableFile

/-- A fault of the file as one of a query. -/
def queryFault (fault : Fault) : Sql.Fault := .storage fault.message

/-- The trees of a file as queries reach them. -/
def storage (file : TableFile) : Sql.Storage :=
  let text := file.encoding.storage
  let record (cell : Cell) : Sql.Record := fun position =>
    (cell.column file text position).mapError queryFault
  { text
    rows := fun root =>
      ((file.cells .rows root).map fun cell => (cell.number, record cell)).mapError queryFault
    row := fun root number =>
      ((file.rowCell? root number).map (·.map record)).mapError queryFault
    entries := fun root =>
      ((file.cells .entries root).map record).mapError queryFault }

def catalog (file : TableFile) : Sql.Outcome Sql.Catalog := do
  let storage := file.storage
  let columns := List.range Sql.Catalog.listTable.columns.length
  let entries ← (← (storage.rows Sql.Catalog.listRoot).toList).mapM fun (_, record) => do
    let values ← columns.mapM fun column => do return (← record column).getD .null
    return Sql.SchemaEntry.ofValues storage.text values
  Sql.Catalog.ofEntries ⟨file.pageCount, file.isWritable⟩ entries

def columnQuery (table column : String) : Sql.Query :=
  let source := Sql.Source.mk (.table (Bytes.ofText table) .any) none .inner none []
  .mk false [] (.select false [.expression (.name (Bytes.ofText column) false) none] [source] none []
    none []) [] [] none none

/-- The bytes that a query of one column yields, row by row. -/
def bytesOf (file : TableFile) (query : Sql.Query) : Sql.Outcome (List Bytes) := do
  let catalog ← file.catalog
  let plan ← Sql.plan ⟨catalog, file.storage⟩ Sql.maxQueryDepth .outermost query
  let rows ← (plan.source.rows (.of [0]) []).toList
  rows.zipIdx.mapM fun (row, index) => do
    match ← row 0 with
    | .blob content => return content
    | _ => throw (.notBytes index)

/-- The bytes in a column of all the rows of a table, in order. -/
def column (file : TableFile) (table column : String) : Except Fault (List Bytes) :=
  (file.bytesOf (columnQuery table column)).mapError .query

/-- The bytes in a column of a table, of a file in some bytes with a log beside them. -/
def readColumn (data logData : Bytes) (table column : String) : Except Fault (List Bytes) := do
  (← parse data logData).column table column

end TableFile

end ImageAudit.Rpm
