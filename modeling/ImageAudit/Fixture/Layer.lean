import ImageAudit.Fixture.Package
import ImageAudit.Gzip.Writer
import ImageAudit.Rpm.Database
import ImageAudit.Rpm.HashFile.Writer
import ImageAudit.Rpm.TableFile.Writer
import ImageAudit.Tar.Writer

/-! # Layer fixtures

A layer described by its entries, with the archive that an image would hold for it. Markers that
delete lower files, package databases and os-release files are entries like others.
-/

namespace ImageAudit.Fixture

open Rpm

inductive LayerEntry where
  | file (path : String) (mode : UInt32) (content : Bytes)
  | directory (path : String) (mode : UInt32)
  | symbolicLink (path target : String)
  | hardLink (path target : String)
  deriving DecidableEq

namespace LayerEntry

/-- An empty file. -/
def marker (path : String) : LayerEntry := .file path 0o644 []

/-- The entry that deletes a path of lower layers. -/
def whiteout (path : String) : LayerEntry :=
  match Text.splitLast? '/' path with
  | some (parent, name) => marker (parent ++ "/.wh." ++ name)
  | none => marker (".wh." ++ path)

/-- The entry that hides all that lower layers hold in a directory. -/
def opaqueDirectory (path : String) : LayerEntry :=
  marker (Text.dropTrailing '/' path ++ "/.wh..wh..opq")

/-- The entry of a hash file of headers at its usual place. -/
def hashFile (headers : List Bytes) : LayerEntry :=
  .file "var/lib/rpm/Packages" 0o644 (HashFile.Writer.standard.encode headers)

/-- Where a table file of headers usually lies. -/
def tableFilePath : String := "var/lib/rpm/rpmdb.sqlite"

/-- The entry of a table file of headers. -/
def tableFile (path : String) (headers : List Bytes) : LayerEntry :=
  .file path 0o644 (TableFile.Writer.encode packageTable.1 packageTable.2 headers)

def osReleaseText (platform : String) : String :=
  "NAME=\"Red Hat Enterprise Linux\"\nID=\"rhel\"\nPLATFORM_ID=\"platform:" ++ platform ++ "\"\n"

/-- The entries of an os-release file and of the link that leads to it. -/
def osRelease (platform : String) : List LayerEntry :=
  [.file "usr/lib/os-release" 0o644 (Bytes.ofText (osReleaseText platform)),
    .symbolicLink "etc/os-release" "../usr/lib/os-release"]

def archived : LayerEntry → Bytes
  | file path mode content => Tar.Writer.withData 0x30 path mode content
  | directory path mode => Tar.Writer.withData 0x35 path mode []
  | symbolicLink path target => Tar.Writer.withTarget 0x32 path target
  | hardLink path target => Tar.Writer.withTarget 0x31 path target

end LayerEntry

def archive (entries : List LayerEntry) : Bytes :=
  entries.flatMap LayerEntry.archived ++ Tar.Writer.ending

end ImageAudit.Fixture
