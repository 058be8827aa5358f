import ImageAudit.Failure
import ImageAudit.Rpm.HashFile
import ImageAudit.Rpm.Location
import ImageAudit.Rpm.PackageHeader
import ImageAudit.Rpm.TableFile.Query

/-! # Reading a package database

A database of either format holds one header for each package. Reading it yields the packages in the
order of the headers, or fails at the first header that is not sound.
-/

namespace ImageAudit.Rpm

structure DatabaseFiles where
  main : Bytes
  /-- The log beside a table file; empty when there is none. -/
  log : Bytes
  deriving DecidableEq, Repr

namespace TableFile

/-- The most bytes of a path that is resolved on the way to a table file. -/
def maxPathSize : Nat := 512

/-- The most bytes that are added to the path of a table file for the files beside it. -/
def maxEndSize : Nat := 8

/-- The bytes of a path at the root while its names are resolved; none when they become too many. -/
def enterName? (sizes : List Nat) (name : String) : Option (List Nat) :=
  if name = "" ∨ name = "." then some sizes
  else if name = ".." then some sizes.tail
  else if maxPathSize ≤ sizes.foldl (· + ·) (name.utf8ByteSize + 1) then none
  else some ((name.utf8ByteSize + 1) :: sizes)

/-- Whether a table file at a path can be opened: the resolved path must be short enough. -/
def canBeOpened (path : String) : Bool :=
  match ((path.toList.splitOn '/').map String.ofList).foldlM enterName? [] with
  | some sizes => sizes.foldl (· + ·) maxEndSize ≤ maxPathSize
  | none => false

end TableFile

/-- The table and column of a table file that hold the headers. -/
def packageTable : String × String := ("Packages", "blob")

/-- The headers in the files of a database at a path. -/
def readHeaders (path : String) (format : DatabaseFormat) (files : DatabaseFiles) :
    Except String (List Bytes) :=
  match format with
  | .sqlite => do
    if !TableFile.canBeOpened path then throw "unable to open database file"
    (TableFile.readColumn files.main files.log packageTable.1 packageTable.2).mapError
      TableFile.Fault.message
  | .berkeleyDb => (HashFile.readValues files.main).mapError HashFile.Fault.message

/-- The packages of headers; what is wrong with one is reported with its position. -/
def parsePackages (headers : List Bytes) : Except String (List InstalledPackage) :=
  headers.zipIdx.mapM fun (header, position) =>
    (parsePackage header).mapError fun fault => s!"package #{position}: {fault.message}"

/-- The headers of the database at a path, a cause of failure told with the path. -/
def readHeadersAt (path : String) (format : DatabaseFormat) (files : DatabaseFiles) :
    Except Failure (List Bytes) :=
  (readHeaders path format files).mapError (Failure.database path)

def readPackages (path : String) (format : DatabaseFormat) (files : DatabaseFiles) :
    Except Failure (List InstalledPackage) := do
  (parsePackages (← readHeadersAt path format files)).mapError (Failure.database path)

end ImageAudit.Rpm
