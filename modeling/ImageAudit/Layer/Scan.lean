import ImageAudit.Context
import ImageAudit.FileTree
import ImageAudit.Layer.Contents
import ImageAudit.Rpm.Database
import ImageAudit.Tar.Reader

/-! # Scanning a layer

One pass over the archive of a layer yields what it contributes. Every entry that is no directory is
a changed file, apart from the markers that delete what lower layers hold. The files of a package
database are set aside on the way, in a directory of the layer, and the database that lies there is
decoded after the pass. A scan can be told to stop at any time; it looks for that now and then, and
before it sets a file aside.
-/

namespace ImageAudit

/-- When a scan is told to stop. -/
inductive StopSignal where
  | never
  /-- Before the scan begins. -/
  | before
  /-- When a read of the archive begins at the offset or further on. -/
  | fromRead (offset : Nat)
  deriving DecidableEq, Repr

/-- Whether the signal was given when the archive was read as far as it is. -/
def StopSignal.isGiven (signal : StopSignal) (reader : Tar.Reader) : Bool :=
  match signal with
  | never => false
  | before => true
  | fromRead offset =>
    match reader.lastRead with
    | some start => offset ≤ start
    | none => false

namespace Layer

/-- What the name of a marker begins with. -/
def whiteoutStart : String := ".wh."

/-- The name of the marker that hides all that lower layers hold in its directory. -/
def opaqueMarker : String := ".wh..wh..opq"

/-- The most bytes of an os-release file that are read. -/
def maxOsReleaseSize : Nat := 65536

/-- A stop signal is looked for once in so many entries. -/
def pollInterval : Nat := 256

inductive Member where
  /-- A directory, a record about others, or the root. -/
  | ignored
  /-- Hides what lower layers hold in a directory. -/
  | hides (directory : String)
  /-- Deletes what lower layers hold at a path. -/
  | deletes (path : String)
  | file (path : String)
  deriving DecidableEq, Repr

namespace Member

def ofPath (path : String) : Member :=
  if path = "." ∨ path = "/" then .ignored
  else
    let (directory, name) := Path.parentAndName path
    if name = opaqueMarker then .hides directory
    else
      match Text.stripStart? name whiteoutStart with
      | some hidden => .deletes (Path.child directory hidden)
      | none => .file path

/-- What an entry of the given kind and path means. -/
def ofEntry (kind : Tar.EntryKind) (path : Bytes) : Member :=
  if kind = .directory ∨ kind.isExtension then .ignored
  else ofPath (Path.normalize (Utf8.lossy path))

end Member

/-- The layer under scan. -/
structure ScanSite where
  layerId : String
  /-- The path of the directory of the layer. -/
  directory : String
  signal : StopSignal
  deriving DecidableEq, Repr

structure Gathered where
  changed : PathMap FileRecord
  osRelease : OsReleaseChanges

def Gathered.empty : Gathered := ⟨∅, OsReleaseChanges.empty⟩

structure ScanState where
  reader : Tar.Reader
  /-- What lies in the directory of the layer. -/
  staged : FileTree

abbrev Scanning := ExceptT Failure (StateM ScanState)

namespace Scanning

/-- Reads from the archive. -/
def reading (failure : Tar.Fault → Failure) (step : Tar.Reading α) : Scanning α := fun state =>
  let (result, reader) := step state.reader
  (result.mapError failure, { state with reader })

/-- Reads from the archive, with a fault as one of the outcomes. -/
def attempt (step : Tar.Reading α) : Scanning (Except Tar.Fault α) := fun state =>
  let (result, reader) := step state.reader
  (.ok result, { state with reader })

/-- Makes files in the directory of the layer. -/
def making (failure : PathFault → Failure) (step : FileTree.Making α) : Scanning α := fun state =>
  let (result, staged) := step state.staged
  (result.mapError failure, { state with staged })

end Scanning

namespace ScanSite

def unreadable (site : ScanSite) (fault : Tar.Fault) : Failure :=
  .imageAccess ("Failed to read layer " ++ site.layerId ++ ": " ++ fault.message)

/-- A file that could not be set aside. -/
def unstaged (site : ScanSite) (path cause : String) : Failure :=
  .staging ("Failed to stage " ++ Path.below site.directory path ++ " from layer " ++
    site.layerId ++ ": " ++ cause)

def read (site : ScanSite) (step : Tar.Reading α) : Scanning α :=
  Scanning.reading site.unreadable step

/-- Fails when the scan was told to stop. -/
def poll (site : ScanSite) : Scanning Unit := do
  if site.signal.isGiven (← get).reader then throw .cancelled

/-- Fails when a path in the directory of the layer is too long. -/
def reach (site : ScanSite) (path : String) : FileTree.Making Unit := do
  discard (FileTree.components? (Path.below site.directory path) : Except PathFault _)

/-- Sets a file aside. -/
def stage (site : ScanSite) (entry : Tar.Entry) (path : String) : Scanning Unit := do
  let parent := (Path.parentAndName path).1
  let failure (fault : PathFault) := site.unstaged path fault.message
  Scanning.making failure do
    site.reach parent
    FileTree.ensureDirectories parent
    site.reach path
    FileTree.writeFile path []
  let content ←
    Scanning.reading (fun fault => site.unstaged path fault.message) (entry.content entry.size)
  Scanning.making failure (FileTree.writeFile path content)

/-- What an entry at a tracked path leaves there. -/
def osReleaseUpdate (site : ScanSite) (entry : Tar.Entry) : Scanning OsReleaseUpdate :=
  match entry.kind with
  | .symbolicLink | .hardLink =>
    match entry.link? with
    | some target => return .write (.link (Utf8.lossy target))
    | none => return .remove
  | .regular => do
    return .write (.file (Utf8.lossy (← site.read (entry.content maxOsReleaseSize))))
  | _ => return .remove

def gatherFile (site : ScanSite) (gathered : Gathered) (entry : Tar.Entry) (path : String) :
    Scanning Gathered := do
  let mode ← site.read (Tar.Reading.need .number entry.header.mode?)
  let changed := gathered.changed.insert path ⟨path, FileMode.permissions mode⟩
  if entry.kind = .regular ∧ Rpm.isDatabaseFile path then
    site.poll
    site.stage entry path
    return { gathered with changed }
  else
    match OsReleasePath.ofPath? path with
    | some tracked =>
      let update ← site.osReleaseUpdate entry
      return { gathered with changed, osRelease := gathered.osRelease.record tracked update }
    | none => return { gathered with changed }

def gather (site : ScanSite) (gathered : Gathered) (entry : Tar.Entry) : Scanning Gathered :=
  match Member.ofEntry entry.kind entry.path with
  | .ignored => return gathered
  | .hides directory =>
    return { gathered with osRelease := gathered.osRelease.hideDirectory directory }
  | .deletes path =>
    match OsReleasePath.ofPath? path with
    | some tracked =>
      return { gathered with osRelease := gathered.osRelease.record tracked .remove }
    | none => return gathered
  | .file path => site.gatherFile gathered entry path

/-- Looks for a stop signal at the entry with the given number, if its turn has come. -/
def pollAt (site : ScanSite) (number : Nat) : Scanning Unit :=
  if number % pollInterval = 0 then site.poll else return

/-- Gathers the entries from the one with the given number on. The fuel bounds their number: each
takes a block of the archive at least. -/
def gatherFrom (site : ScanSite) : Nat → Nat → Gathered → Scanning Gathered
  | 0, _, gathered => return gathered
  | fuel + 1, number, gathered => do
    match ← Scanning.attempt Tar.next? with
    | .ok none => return gathered
    | .ok (some entry) => do
      site.pollAt number
      site.gatherFrom fuel (number + 1) (← site.gather gathered entry)
    | .error fault => do
      site.pollAt number
      throw (site.unreadable fault)

/-- Everything that the entries of the archive give. -/
def gatherAll (site : ScanSite) (stream : ByteStream) : Scanning Gathered :=
  site.gatherFrom (stream.content.length / Tar.blockSize + 1) 0 Gathered.empty

/-- Whether a file lies in the directory of the layer at a path that can be opened. -/
def holds (site : ScanSite) (staged : FileTree) (path : String) : Bool :=
  (FileTree.components? (Path.below site.directory path)).isOk && staged.isFile path

/-- The files of the database in the directory of the layer. -/
def databaseFiles (staged : FileTree) (path : String) : Rpm.DatabaseFiles :=
  ⟨(staged.content? path).getD [], (staged.content? (Rpm.logPath path)).getD []⟩

/-- Decodes the database in the directory of the layer, if there is one. -/
def decode (site : ScanSite) (gathered : Gathered) (staged : FileTree) :
    Except Failure LayerContents :=
  match Rpm.findDatabase? (site.holds staged) with
  | none => .ok ⟨gathered.changed, none, none, gathered.osRelease⟩
  | some location => do
    let packages ← Rpm.readPackages (Path.below site.directory location.path) location.format
      (databaseFiles staged location.path)
    return ⟨gathered.changed, some location, some packages, gathered.osRelease⟩

end ScanSite

/-- What a layer contributes, as far as its archive and its package database can be read, and what
lies in its directory then. -/
def scan (site : ScanSite) (stream : ByteStream) (staged : FileTree) :
    Except Failure LayerContents × FileTree :=
  let (gathered, state) := (site.gatherAll stream) ⟨Tar.Reader.new stream, staged⟩
  (gathered.bind fun gathered => site.decode gathered state.staged, state.staged)

end Layer

end ImageAudit
