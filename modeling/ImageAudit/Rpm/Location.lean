import ImageAudit.Text

/-! # Where a package database lies

A layer holds its package database at one of four paths, looked for in order. The table format
keeps two files beside the database, which are needed to read it.
-/

namespace ImageAudit.Rpm

inductive DatabaseFormat where
  | sqlite
  | berkeleyDb
  deriving DecidableEq, Repr

structure DatabaseLocation where
  /-- Normalized. -/
  path : String
  format : DatabaseFormat
  deriving DecidableEq, Repr

/-- The paths, in the order in which they are looked for. -/
def databaseLocations : List DatabaseLocation :=
  [⟨"var/lib/rpm/rpmdb.sqlite", .sqlite⟩, ⟨"usr/lib/sysimage/rpm/rpmdb.sqlite", .sqlite⟩,
    ⟨"var/lib/rpm/Packages", .berkeleyDb⟩, ⟨"usr/lib/sysimage/rpm/Packages", .berkeleyDb⟩]

/-- The path of the write-ahead log of a table database. -/
def logPath (path : String) : String := path ++ "-wal"

/-- The path of the shared index of the write-ahead log. -/
def logIndexPath (path : String) : String := path ++ "-shm"

/-- Whether the path is the location or one of the files beside it. -/
def DatabaseLocation.covers (location : DatabaseLocation) (path : String) : Bool :=
  path = location.path ||
    (location.format = .sqlite &&
      (path = logPath location.path || path = logIndexPath location.path))

/-- Whether a normalized path belongs to a package database. -/
def isDatabaseFile (path : String) : Bool := databaseLocations.any (·.covers path)

/-- The first location at which there is a file. -/
def findDatabase? (isFile : String → Bool) : Option DatabaseLocation :=
  databaseLocations.find? fun location => isFile location.path

end ImageAudit.Rpm
