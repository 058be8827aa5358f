import ImageAudit.Exclusion
import ImageAudit.Package
import ImageAudit.Path
import Std.Data.HashMap
import Std.Data.TreeMap

/-! # Who owns a path

The packages of a layer claim the paths of their files, in database order and then file order.
Directories, files that may change after installation, and excluded paths are not claimed. The
last claim wins, except that a claim for the same name, version and release under another
architecture leaves the owner as it is.
-/

namespace ImageAudit

/-- A map from normalized paths, in the order of their bytes. -/
abbrev PathMap (α : Type) := Std.TreeMap String α

/-- The owner of each owned path of one layer. -/
structure OwnershipMap where
  owners : PathMap PackageKey

/-- One package's claim on one path. -/
structure Claim where
  path : String
  key : PackageKey
  deriving DecidableEq, Repr

/-- Whether a package declares the file as a directory, by its mode or among its directory
names. -/
def InstalledPackage.declaresDirectory (package : InstalledPackage) (file : InstalledFile) : Bool :=
  FileMode.isDirectory file.mode || package.dirNames.contains (file.path ++ "/")

/-- The claim that a package makes through one of its files. -/
def InstalledPackage.claim? (package : InstalledPackage) (policy : ExclusionPolicy)
    (file : InstalledFile) : Option Claim :=
  if package.declaresDirectory file || file.flags.mayVary ||
      policy.excludes (Path.normalize file.path) then none
  else some ⟨Path.normalize file.path, package.record.key⟩

def claims (policy : ExclusionPolicy) (packages : List InstalledPackage) : List Claim :=
  packages.flatMap fun package => package.files.filterMap (package.claim? policy)

namespace OwnershipMap

def empty : OwnershipMap := ⟨∅⟩

def owner? (map : OwnershipMap) (path : String) : Option PackageKey := map.owners[path]?

/-- Settle one more claim. -/
def settle (map : OwnershipMap) (claim : Claim) : OwnershipMap :=
  match map.owner? claim.path with
  | some owner =>
    if owner.isTwin claim.key then map else ⟨map.owners.insert claim.path claim.key⟩
  | none => ⟨map.owners.insert claim.path claim.key⟩

/-- The owners that the packages of a layer give. -/
def resolve (policy : ExclusionPolicy) (packages : List InstalledPackage) : OwnershipMap :=
  (claims policy packages).foldl settle empty

/-- How many paths have an owner. -/
def size (map : OwnershipMap) : Nat := map.owners.size

/-- The owned paths with their owners, in the order of the paths' bytes. -/
def toList (map : OwnershipMap) : List (String × PackageKey) := map.owners.toList

end OwnershipMap

/-- The records of the packages of one layer, by identity. -/
structure PackageSet where
  records : Std.HashMap PackageKey PackageRecord

namespace PackageSet

def empty : PackageSet := ⟨∅⟩

def record? (set : PackageSet) (key : PackageKey) : Option PackageRecord := set.records[key]?

/-- The packages of a layer; of two with one identity the later is kept. -/
def ofPackages (packages : List InstalledPackage) : PackageSet :=
  ⟨packages.foldl (fun records package => records.insert package.record.key package.record) ∅⟩

def size (set : PackageSet) : Nat := set.records.size

end PackageSet

end ImageAudit
