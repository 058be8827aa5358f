import ImageAudit.Classifier
import ImageAudit.Rpm.Header.Writer

/-! # Package fixtures

A package described in short, with the header that a database would hold for it and the record that
reading the header gives back.
-/

namespace ImageAudit.Fixture

open Rpm

structure FixtureFile where
  /-- From the root. -/
  path : String
  /-- With the file type. -/
  mode : UInt16
  flags : FileFlags
  deriving DecidableEq

structure PackageFixture where
  name : String
  version : String
  release : String
  /-- Left out of the header when there is none. -/
  arch : Option String
  epoch : Option Int32
  vendor : Option String
  installTime : Int32
  files : List FixtureFile
  /-- Whether paths are stored whole. -/
  legacyFileNames : Bool
  deriving DecidableEq

namespace PackageFixture

/-- A package of the standard vendor without files. -/
def new (name version release : String) (arch : Option String) : PackageFixture where
  name := name
  version := version
  release := release
  arch := arch
  epoch := none
  vendor := some standardVendor
  installTime := 1700000000
  files := []
  legacyFileNames := false

/-- The path with exactly one slash in front. -/
def rooted (path : String) : String :=
  String.ofList ('/' :: path.toList.dropWhile (· == '/'))

/-- The package with one more file, whose mode holds the file type. -/
def addFile (package : PackageFixture) (path : String) (mode : UInt16) (flags : FileFlags) :
    PackageFixture :=
  { package with files := package.files ++ [⟨rooted path, mode, flags⟩] }

def addRegular (package : PackageFixture) (path : String) (mode : UInt16) (flags : FileFlags) :
    PackageFixture :=
  package.addFile path (0o100000 ||| mode) flags

def addDirectory (package : PackageFixture) (path : String) : PackageFixture :=
  package.addFile path 0o040755 FileFlags.empty

/-- The record that reading the header gives back. -/
def record (package : PackageFixture) : PackageRecord where
  name := package.name
  version := package.version
  release := package.release
  arch := package.arch.getD ""
  epoch := package.epoch
  vendor := package.vendor.getD ""
  installTime := package.installTime.toInt64

/-- The directory of a path with its slash, and the last component. -/
def splitPath (path : String) : String × String :=
  match path.toList.reverse.dropWhile (· != '/') with
  | [] => ("/", path)
  | directory =>
    (String.ofList directory.reverse,
      String.ofList (path.toList.reverse.takeWhile (· != '/')).reverse)

/-- The directories in the order of their first file. -/
def directories (package : PackageFixture) : List String :=
  package.files.foldl (fun seen file =>
    let directory := (splitPath file.path).1
    if seen.contains directory then seen else seen ++ [directory]) []

def pathFields (package : PackageFixture) : List HeaderField :=
  if package.legacyFileNames then
    [.strings Tag.oldFileNames (package.files.map (·.path))]
  else
    let directories := package.directories
    [.strings Tag.baseNames (package.files.map fun file => (splitPath file.path).2),
      .strings Tag.directoryNames directories,
      .int32 Tag.directoryIndexes (package.files.map fun file =>
        UInt32.ofNat (directories.idxOf (splitPath file.path).1))]

/-- The tags that hold the file list; none without files. -/
def fileFields (package : PackageFixture) : List HeaderField :=
  if package.files = [] then []
  else
    package.pathFields ++
      [.int16 Tag.fileModes (package.files.map (·.mode)),
        .int32 Tag.fileFlags (package.files.map (·.flags.bits))]

def fields (package : PackageFixture) : List HeaderField :=
  [.string Tag.name package.name, .string Tag.version package.version,
    .string Tag.release package.release] ++
  (package.epoch.map fun epoch => HeaderField.int32 Tag.epoch [epoch.toUInt32]).toList ++
  [.int32 Tag.installTime [package.installTime.toUInt32]] ++
  (package.vendor.map (HeaderField.string Tag.vendor)).toList ++
  (package.arch.map (HeaderField.string Tag.arch)).toList ++
  package.fileFields

/-- The header that a database holds for the package. -/
def header (package : PackageFixture) : Bytes := (HeaderBuilder.ofFields package.fields).finish

end PackageFixture

end ImageAudit.Fixture
