import ImageAudit.Package
import ImageAudit.Rpm.Header
import ImageAudit.Rpm.Tag

/-! # Packages out of headers

A header describes one installed package. Its file list is spread over several tags that must agree
in length: the paths, either whole or as directories and last components, the modes and the flags.
Modes and flags that are not there count as zero.
-/

namespace ImageAudit.Rpm

namespace Header

/-- The value of a tag that must be there. -/
def need (name : String) (value : Option α) : Except HeaderFault α :=
  match value with
  | some value => .ok value
  | none => .error (.missingTag name)

/-- The path of a file in the directory with the given position. -/
def pathIn (directories : Array String) (baseName : String) (index : Int) :
    Except HeaderFault String :=
  match (if index < 0 then none else directories[index.toNat]?) with
  | some directory => .ok (directory ++ baseName)
  | none => .error (.fileList (.directoryIndex index directories.size))

/-- The paths made of directories and last components. -/
def joinPaths (directories : List String) (baseNames : List String) (indexes : List Int) :
    Except HeaderFault (List String) :=
  if indexes.length ≠ baseNames.length then
    .error (.fileList (.directoryIndexes indexes.length baseNames.length))
  else (baseNames.zip indexes).mapM fun (baseName, index) =>
    pathIn directories.toArray baseName index

/-- The paths of the package's files and its directory names. -/
def filePaths (header : Header) : Except HeaderFault (List String × List String) := do
  match ← header.strings? Tag.baseNames with
  | some baseNames =>
    let directories ← need "DIRNAMES" (← header.strings? Tag.directoryNames)
    let indexes ← need "DIRINDEXES" (← header.integers? Tag.directoryIndexes)
    return (← joinPaths directories baseNames indexes, directories)
  | none =>
    match ← header.strings? Tag.oldFileNames with
    | some paths => return (paths, [])
    | none =>
      if header.has Tag.directoryNames || header.has Tag.directoryIndexes then
        throw (.missingTag "BASENAMES")
      return ([], [])

/-- One value for each of the files: those given, or zeros where none are. -/
def perFile (tag : String) (files : Nat) (values : List Int) : Except HeaderFault (List Int) :=
  if values.length = files then .ok values
  else if values = [] then .ok (List.replicate files 0)
  else .error (.fileList (.attributes tag values.length files))

/-- A file of the list: the low 16 bits of its mode and the low 32 bits of its flags. -/
def installedFile (path : String) (mode flags : Int) : InstalledFile where
  path := path
  mode := UInt32.ofInt mode &&& 0xffff
  flags := ⟨UInt32.ofInt flags⟩

def packageRecord (header : Header) : Except HeaderFault PackageRecord := do
  let name ← need "NAME" (← header.string? Tag.name)
  let version ← header.string? Tag.version
  let release ← header.string? Tag.release
  let arch ← header.string? Tag.arch
  let epoch ← header.integer? Tag.epoch
  let vendor ← header.string? Tag.vendor
  let installTime ← header.integer? Tag.installTime
  return {
    name := name
    version := version.getD ""
    release := release.getD ""
    arch := arch.getD ""
    epoch := epoch.map Int32.ofInt
    vendor := vendor.getD ""
    installTime := Int64.ofInt (installTime.getD 0) }

def package (header : Header) : Except HeaderFault InstalledPackage := do
  let record ← header.packageRecord
  let (paths, directories) ← header.filePaths
  let modes := (← header.integers? Tag.fileModes).getD []
  let flags := (← header.integers? Tag.fileFlags).getD []
  let modes ← perFile "FILEMODES" paths.length modes
  let flags ← perFile "FILEFLAGS" paths.length flags
  return {
    record := record
    files := (paths.zip (modes.zip flags)).map fun (path, mode, flags) =>
      installedFile path mode flags
    dirNames := directories }

end Header

def parsePackage (blob : Bytes) : Except HeaderFault InstalledPackage := do
  (← Header.parse blob).package

end ImageAudit.Rpm
