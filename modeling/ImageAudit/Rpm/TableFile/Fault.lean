import ImageAudit.Sql.Fault

/-! # Faults of table files

What keeps a column of a table file from being read.
-/

namespace ImageAudit.Rpm.TableFile

inductive Fault where
  /-- The first page is not that of a table file. -/
  | notTableFile
  | unsupportedLog (version : Nat)
  | pageMissing (page count : Nat)
  | pageKind (page kind : Nat)
  | cellCount (page count : Nat)
  | tooDeep (page : Nat)
  | cellOverruns (page : Nat)
  | valueTooLong (page length : Nat)
  | chainTooShort (page : Nat)
  | record
  /-- The rows that are asked for cannot be computed. -/
  | query (fault : Sql.Fault)
  deriving DecidableEq, Repr

def Fault.message : Fault → String
  | notTableFile => "file is not a database"
  | unsupportedLog version => s!"log of unsupported version {version}"
  | pageMissing page count => s!"page {page} is not one of the {count} pages"
  | pageKind page kind => s!"page {page} has unexpected kind {kind}"
  | cellCount page count => s!"page {page} cannot hold {count} cells"
  | tooDeep page => s!"page {page} lies too deep"
  | cellOverruns page => s!"cell overruns page {page}"
  | valueTooLong page length => s!"value of {length} bytes in page {page} is larger than the file"
  | chainTooShort page => s!"overflow chain from page {page} ends early"
  | record => "malformed record"
  | query fault => fault.message

end ImageAudit.Rpm.TableFile
