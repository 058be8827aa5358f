import ImageAudit.OsRelease.Tracker
import ImageAudit.Ownership
import ImageAudit.Rpm.Location

/-! # What one layer contributes

A layer is the difference to the layers below it: the files it writes, the package database it
carries, if any, and what it does to the os-release files.
-/

namespace ImageAudit

structure LayerContents where
  /-- The files that the layer writes. -/
  changed : PathMap FileRecord
  /-- Where the package database was found. -/
  database : Option Rpm.DatabaseLocation
  /-- The packages of the database; none when there is no database. -/
  packages : Option (List InstalledPackage)
  osRelease : OsReleaseChanges

namespace LayerContents

def empty : LayerContents := ⟨∅, none, none, OsReleaseChanges.empty⟩

def hasDatabase (contents : LayerContents) : Bool := contents.packages.isSome

end LayerContents

end ImageAudit
