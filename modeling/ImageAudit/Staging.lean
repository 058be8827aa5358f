import ImageAudit.FileTree
import ImageAudit.Failure
import ImageAudit.Layer.Descriptor

/-! # Directories for temporary files

A run makes a directory of its own, and in it one directory for each layer, named by the layer. At
the end it removes its directory. The name of a layer may hold slashes, so that its directory can be
that of another layer, or lie elsewhere.
-/

namespace ImageAudit

structure Staging where
  path : String
  deriving DecidableEq, Repr

namespace Staging

/-- What the name of a run's directory begins with. -/
def nameStart : String := "rpm-layers-"

/-- The directory of a run in the one for temporary files, with a name that is not in use. -/
def under (root unusedEnd : String) : Staging := ⟨Path.below root (nameStart ++ unusedEnd)⟩

/-- Where the files of a layer are set aside. -/
def layerDirectory (staging : Staging) (layer : LayerDescriptor) : String :=
  Path.below staging.path layer.id

def make (staging : Staging) : ExceptT Failure (StateM FileTree) Unit :=
  ExceptT.adapt (fun fault => .staging ("Failed to create staging directory: " ++ fault.message))
    (FileTree.makeDirectoryAt staging.path)

/-- Makes the directory of a layer, with those above it, unless there is one, and tells its place. -/
def prepare (staging : Staging) (layer : LayerDescriptor) :
    ExceptT Failure (StateM FileTree) Place :=
  let path := staging.layerDirectory layer
  ExceptT.adapt (fun fault => .staging ("Failed to create " ++ path ++ ": " ++ fault.message))
    (FileTree.ensureDirectories path *> FileTree.locating path)

/-- Removes the directory of the run with all that lies below it. -/
def remove (staging : Staging) (files : FileTree) : FileTree :=
  files.without (FileTree.placeOf staging.path)

end Staging

end ImageAudit
