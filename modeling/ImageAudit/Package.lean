/-! # Packages and files

What a package database says about the installed packages and their files, and what a layer says
about the files it writes. A package is identified by name, version, release and architecture,
compared field by field: versions and releases may hold dashes, so the joined text is for reading
only.
-/

namespace ImageAudit

/-- The identity of one installed package variant. -/
structure PackageKey where
  name : String
  version : String
  release : String
  arch : String
  deriving DecidableEq, Hashable, Repr

namespace PackageKey

/-- Same name, version and release, for another architecture. -/
def isTwin (a b : PackageKey) : Bool :=
  a.name = b.name && a.version = b.version && a.release = b.release && a.arch != b.arch

/-- Field by field, each in the order of its bytes. -/
def compare (a b : PackageKey) : Ordering :=
  (Ord.compare a.name b.name).then <| (Ord.compare a.version b.version).then <|
    (Ord.compare a.release b.release).then (Ord.compare a.arch b.arch)

def label (key : PackageKey) : String :=
  key.name ++ "-" ++ key.version ++ "-" ++ key.release ++ "-" ++ key.arch

end PackageKey

/-- What the database says about an installed package. -/
structure PackageRecord where
  name : String
  version : String
  release : String
  arch : String
  epoch : Option Int32
  vendor : String
  /-- Seconds since 1970 at which the package was installed. -/
  installTime : Int64
  deriving DecidableEq

/-- The identity of the package that the record describes. -/
def PackageRecord.key (record : PackageRecord) : PackageKey :=
  ⟨record.name, record.version, record.release, record.arch⟩

/-- Attributes that a package declares for one of its files. -/
structure FileFlags where
  bits : UInt32
  deriving DecidableEq

namespace FileFlags

def empty : FileFlags := ⟨0⟩

def config : FileFlags := ⟨0x1⟩

def doc : FileFlags := ⟨0x2⟩

def missingOk : FileFlags := ⟨0x8⟩

/-- A file that the package owns but does not bring along. -/
def ghost : FileFlags := ⟨0x40⟩

def license : FileFlags := ⟨0x80⟩

/-- A text to read first. -/
def readme : FileFlags := ⟨0x100⟩

def artifact : FileFlags := ⟨0x1000⟩

/-- The attributes of both. -/
def union (a b : FileFlags) : FileFlags := ⟨a.bits ||| b.bits⟩

/-- Whether the two share an attribute. -/
def intersects (a b : FileFlags) : Bool := a.bits &&& b.bits != 0

/-- Whether the first has every attribute of the second. -/
def contains (a b : FileFlags) : Bool := a.bits &&& b.bits == b.bits

/-- The attributes of files that may change after installation. -/
def varying : FileFlags :=
  [config, doc, license, missingOk, readme, artifact, ghost].foldl union empty

/-- Whether a change to a file with these attributes is of no interest. -/
def mayVary (flags : FileFlags) : Bool := flags.intersects varying

end FileFlags

namespace FileMode

def isDirectory (mode : UInt32) : Bool := mode &&& 0o170000 == 0o040000

/-- The bit that runs a program as its owner. -/
def setUser : UInt32 := 0o4000

/-- The bit that runs a program as its group. -/
def setGroup : UInt32 := 0o2000

def has (mode bit : UInt32) : Bool := mode &&& bit != 0

/-- Permission, set-id and sticky bits, without the file type. -/
def permissions (mode : UInt32) : UInt32 := mode &&& 0o7777

end FileMode

structure InstalledFile where
  /-- As the database has it, from the root. -/
  path : String
  mode : UInt32
  flags : FileFlags
  deriving DecidableEq

structure InstalledPackage where
  record : PackageRecord
  files : List InstalledFile
  /-- The directories named by the file list, each with a trailing slash. -/
  dirNames : List String
  deriving DecidableEq

structure FileRecord where
  /-- Normalized. -/
  path : String
  mode : UInt32
  deriving DecidableEq

end ImageAudit
