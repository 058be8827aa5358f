import ImageAudit.Bytes
import ImageAudit.Path
import ImageAudit.Text

/-! # Trees of files

Files and directories by path. A path is followed component by component, as a file system does:
every component but the last must be a directory, `.` and an empty component stay in it, and `..`
leads to the directory above. There are no links. What lies below a directory is a tree of its own,
which can be taken out, changed and put back. Joining a path that begins at the root leaves what it
is joined to.
-/

namespace ImageAudit

inductive FileNode where
  | file (content : Bytes)
  | directory
  deriving DecidableEq, Repr

/-- Why a path leads nowhere, or nothing can be made there. -/
inductive PathFault where
  | zeroCharacter
  | tooLong
  | missing
  | notDirectory
  | isDirectory
  | taken
  deriving DecidableEq, Repr

def PathFault.message : PathFault → String
  | zeroCharacter => "file name contained an unexpected NUL byte"
  | tooLong => "File name too long (os error 36)"
  | missing => "No such file or directory (os error 2)"
  | notDirectory => "Not a directory (os error 20)"
  | isDirectory => "Is a directory (os error 21)"
  | taken => "File exists (os error 17)"

/-- A place in a tree: the names that lead to it from the root. -/
abbrev Place := List String

/-- Files and directories by their places, what was written last in front. Directories above a node
are in the tree too; the root is not listed. -/
structure FileTree where
  nodes : List (Place × FileNode)
  deriving DecidableEq, Repr

namespace FileTree

def maxPathSize : Nat := 4095

def maxNameSize : Nat := 255

/-- Only the root. -/
def empty : FileTree := ⟨[]⟩

def node? (tree : FileTree) (place : Place) : Option FileNode :=
  if place = [] then some .directory else tree.nodes.lookup place

def put (tree : FileTree) (place : Place) (node : FileNode) : FileTree :=
  ⟨(place, node) :: tree.nodes⟩

/-! ## Parts of a tree -/

def liesBelow (directory place : Place) : Bool := directory.isPrefixOf place && place != directory

/-- What lies below a directory, as a tree. -/
def below (tree : FileTree) (directory : Place) : FileTree :=
  ⟨(tree.nodes.filter fun entry => liesBelow directory entry.1).map fun (place, node) =>
    (place.drop directory.length, node)⟩

/-- The tree without what lies below a directory. -/
def emptied (tree : FileTree) (directory : Place) : FileTree :=
  ⟨tree.nodes.filter fun entry => !liesBelow directory entry.1⟩

/-- The tree with another one below a directory. -/
def withBelow (tree : FileTree) (directory : Place) (part : FileTree) : FileTree :=
  ⟨part.nodes.map (fun (place, node) => (directory ++ place, node)) ++
    (tree.emptied directory).nodes⟩

/-- The tree without a directory and what lies below it. -/
def without (tree : FileTree) (directory : Place) : FileTree :=
  ⟨tree.nodes.filter fun entry => !directory.isPrefixOf entry.1⟩

/-- Whether nothing lies below a directory. -/
def isBare (tree : FileTree) (directory : Place) : Bool := (tree.below directory).nodes.isEmpty

/-! ## Building a tree -/

/-- The components of a path, the empty ones included. -/
def components (path : String) : List String := (path.toList.splitOn '/').map String.ofList

/-- The place that a path names, with no regard to what lies there. -/
def placeOf (path : String) : Place := (components path).filter (· != "")

/-- Puts directories at all beginnings of a place. -/
def putDirectories (tree : FileTree) (place : Place) : FileTree :=
  (List.range place.length).foldl
    (fun tree count => tree.put (place.take (count + 1)) .directory) tree

/-- Adds a directory with those above it. -/
def addDirectory (tree : FileTree) (path : String) : FileTree := tree.putDirectories (placeOf path)

def addFile (tree : FileTree) (path : String) (content : Bytes) : FileTree :=
  (tree.putDirectories (placeOf path).dropLast).put (placeOf path) (.file content)

/-! ## Following a path -/

/-- The components of a path that is no longer than a path can be. -/
def components? (path : String) : Except PathFault (List String) :=
  if path.toList.contains '\x00' then .error .zeroCharacter
  else if maxPathSize < path.utf8ByteSize then .error .tooLong
  else .ok (components path)

/-- The place reached from a directory by one more component. -/
def enter (tree : FileTree) (place : Place) (component : String) : Except PathFault Place :=
  if tree.node? place ≠ some .directory then .error .notDirectory
  else if component = "" ∨ component = "." then .ok place
  else if component = ".." then .ok place.dropLast
  else if maxNameSize < component.utf8ByteSize then .error .tooLong
  else if (tree.node? (place ++ [component])).isSome then .ok (place ++ [component])
  else .error .missing

/-- The place to which components lead. -/
def follow (tree : FileTree) (components : List String) : Except PathFault Place :=
  components.foldlM tree.enter []

def locate (tree : FileTree) (path : String) : Except PathFault Place := do
  tree.follow (← components? path)

def find? (tree : FileTree) (path : String) : Option FileNode := do
  tree.node? (← (tree.locate path).toOption)

def contains (tree : FileTree) (path : String) : Bool := (tree.find? path).isSome

def content? (tree : FileTree) (path : String) : Option Bytes :=
  match tree.find? path with
  | some (.file content) => some content
  | _ => none

def isFile (tree : FileTree) (path : String) : Bool := (tree.content? path).isSome

/-! ## Making files and directories -/

/-- A step that makes files and directories. What was made before a fault stays. -/
abbrev Making := ExceptT PathFault (StateM FileTree)

/-- The place for a new node of a name, and what lies there. The directory above it must be there;
`.` and `..` are no names. -/
def placeFor (tree : FileTree) (above : List String) (name : String) :
    Except PathFault (Place × Option FileNode) := do
  let directory ← tree.follow above
  if tree.node? directory ≠ some .directory then throw .notDirectory
  if name = "." ∨ name = ".." then return (directory, some .directory)
  if maxNameSize < name.utf8ByteSize then throw .tooLong
  return (directory ++ [name], tree.node? (directory ++ [name]))

def makeDirectory (components : List String) : Making Unit := do
  match components.reverse.dropWhile (· = "") with
  | [] => throw .taken
  | name :: above =>
    match (← get).placeFor above.reverse name with
    | .error fault => throw fault
    | .ok (_, some _) => throw .taken
    | .ok (place, none) => modify fun tree => tree.put place .directory

/-- Makes the directory of a path, where nothing lies yet. -/
def makeDirectoryAt (path : String) : Making Unit := do
  makeDirectory (← (components? path : Except PathFault _))

def ensureDirectory (components : List String) : Making Unit :=
  tryCatch (makeDirectory components) fun fault => do
    let tree ← get
    match tree.follow components with
    | .ok place => if tree.node? place ≠ some .directory then throw fault
    | .error _ => throw fault

/-- Makes a directory with those above it, given from the last component to the first. -/
def ensureAbove : List String → Making Unit
  | [] => return
  | name :: above =>
    let components := (name :: above).reverse
    tryCatch (ensureDirectory components) fun fault => do
      if fault ≠ .missing then throw fault
      ensureAbove above
      ensureDirectory components

/-- Makes the directory of a path, with those above it, unless there is one. -/
def ensureDirectories (path : String) : Making Unit := do
  let components ← (components? path : Except PathFault _)
  tryCatch (ensureDirectory components) fun fault => do
    if fault ≠ .missing then throw fault
    ensureAbove ((components.filter fun name => name != "" && name != ".").dropLast).reverse
    ensureDirectory components

def locating (path : String) : Making Place := do
  let place ← (← get).locate path
  return place

/-- Writes a file, over one that may lie there already. -/
def writeFile (path : String) (content : Bytes) : Making Unit := do
  let components ← (components? path : Except PathFault _)
  match components.reverse with
  | [] => throw .missing
  | name :: above =>
    match (← get).placeFor above.reverse name with
    | .error fault => throw fault
    | .ok (_, some .directory) => throw .isDirectory
    | .ok (place, _) => modify fun tree => tree.put place (.file content)

end FileTree

namespace Path

/-- A path below another; one that begins at the root stands for itself. -/
def below (base path : String) : String :=
  if Text.startsWith path "/" then path
  else if base = "" ∨ Text.endsWith base "/" then base ++ path
  else base ++ "/" ++ path

end Path

end ImageAudit
