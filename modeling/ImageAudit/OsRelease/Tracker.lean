import ImageAudit.OsRelease.DistTag
import ImageAudit.Path

/-! # The os-release text of an image

Two files may hold the os-release text, one of them often a link to the other. Each layer writes,
removes or hides them; the tracker folds these changes in layer order, so that the text that the
finished image shows is known without unpacking it. A link is followed once, and only to the other
tracked file.
-/

namespace ImageAudit

/-- The two files that may hold the os-release text. -/
inductive OsReleasePath where
  | etc
  | usrLib
  deriving DecidableEq, Repr

namespace OsReleasePath

def path : OsReleasePath → String
  | etc => "etc/os-release"
  | usrLib => "usr/lib/os-release"

def directory : OsReleasePath → String
  | etc => "etc"
  | usrLib => "usr/lib"

/-- The tracked file that a normalized path names. -/
def ofPath? (path : String) : Option OsReleasePath :=
  if path = etc.path then some etc
  else if path = usrLib.path then some usrLib
  else none

end OsReleasePath

inductive OsReleaseEntry where
  | file (content : String)
  /-- A symbolic or hard link, with its target as written. -/
  | link (target : String)
  deriving DecidableEq, Repr

/-- What one layer last did to a tracked path. -/
inductive OsReleaseUpdate where
  | write (entry : OsReleaseEntry)
  | remove
  deriving DecidableEq, Repr

/-- What one layer did to the tracked paths. -/
structure OsReleaseChanges where
  etc : Option OsReleaseUpdate
  usrLib : Option OsReleaseUpdate
  /-- The directories whose content below the layer is hidden. -/
  opaqueDirs : List String
  deriving DecidableEq, Repr

namespace OsReleaseChanges

def empty : OsReleaseChanges := ⟨none, none, []⟩

/-- The last update of a tracked path. -/
def update? (changes : OsReleaseChanges) : OsReleasePath → Option OsReleaseUpdate
  | .etc => changes.etc
  | .usrLib => changes.usrLib

/-- Record an update; it replaces an earlier one of the same path. -/
def record (changes : OsReleaseChanges) (path : OsReleasePath) (update : OsReleaseUpdate) :
    OsReleaseChanges :=
  match path with
  | .etc => { changes with etc := some update }
  | .usrLib => { changes with usrLib := some update }

/-- Record that the content of a normalized directory is hidden. -/
def hideDirectory (changes : OsReleaseChanges) (directory : String) : OsReleaseChanges :=
  { changes with opaqueDirs := changes.opaqueDirs ++ [directory] }

/-- Whether nothing was recorded. -/
def isEmpty (changes : OsReleaseChanges) : Bool :=
  changes.etc.isNone && changes.usrLib.isNone && changes.opaqueDirs.isEmpty

/-- Whether a hidden directory is the top or an ancestor of the path. -/
def hides (changes : OsReleaseChanges) (path : OsReleasePath) : Bool :=
  changes.opaqueDirs.any fun directory =>
    directory = "." || Text.startsWith path.path (directory ++ "/")

end OsReleaseChanges

/-- What stands at the tracked paths after some layers. -/
structure OsReleaseTracker where
  etc : Option OsReleaseEntry
  usrLib : Option OsReleaseEntry
  deriving DecidableEq, Repr

namespace OsReleaseTracker

def empty : OsReleaseTracker := ⟨none, none⟩

def entry? (tracker : OsReleaseTracker) : OsReleasePath → Option OsReleaseEntry
  | .etc => tracker.etc
  | .usrLib => tracker.usrLib

/-- What a layer leaves at a tracked path: its own last update, else nothing where it hides the
path, else what was there. -/
def entryAfter (tracker : OsReleaseTracker) (changes : OsReleaseChanges) (path : OsReleasePath) :
    Option OsReleaseEntry :=
  match changes.update? path with
  | some (.write entry) => some entry
  | some .remove => none
  | none => if changes.hides path then none else tracker.entry? path

/-- The state after the next layer. -/
def apply (tracker : OsReleaseTracker) (changes : OsReleaseChanges) : OsReleaseTracker :=
  ⟨tracker.entryAfter changes .etc, tracker.entryAfter changes .usrLib⟩

/-- Where a link at a tracked path leads: from the root when the target begins with a slash, else
from the link's directory. -/
def linkTarget (path : OsReleasePath) (target : String) : String :=
  match Text.stripStart? target "/" with
  | some fromRoot => Path.normalize fromRoot
  | none => Path.normalize (path.directory ++ "/" ++ target)

/-- The text at a tracked path, when it is a file. -/
def fileContent? (tracker : OsReleaseTracker) (path : OsReleasePath) : Option String :=
  match tracker.entry? path with
  | some (.file content) => some content
  | _ => none

/-- The text at a tracked path, through at most one link. -/
def content? (tracker : OsReleaseTracker) (path : OsReleasePath) : Option String :=
  match tracker.entry? path with
  | some (.file content) => some content
  | some (.link target) =>
    (OsReleasePath.ofPath? (linkTarget path target)).bind tracker.fileContent?
  | none => none

/-- The os-release text of the image: that of `etc/os-release`, else that of
`usr/lib/os-release`. -/
def osRelease? (tracker : OsReleaseTracker) : Option String :=
  (tracker.content? .etc).or (tracker.content? .usrLib)

def distTag (tracker : OsReleaseTracker) : DistTag :=
  match tracker.osRelease? with
  | some content => DistTag.ofOsRelease content
  | none => .unknown

end OsReleaseTracker

end ImageAudit
