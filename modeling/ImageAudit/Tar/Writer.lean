import ImageAudit.Tar.Header

/-! # Writing archives

Entries are written in the dialect with long names, without owner or time. The components of a path
are joined anew, so that it has no empty one and no `.` inside; they are written one at a time. A
path or link target that does not fit its field is written in an entry of its own in front; the
header then holds the beginning of the path, and those components of the target that do fit. Two
blocks of zeros end the archive.
-/

namespace ImageAudit.Tar

namespace Writer

/-- The low digits of a number in octal, as many as asked for, and a zero byte. -/
def octal (digits value : Nat) : Bytes :=
  ((List.range digits).reverse.map fun place =>
    UInt8.ofNat (48 + (value >>> (3 * place)) % 8)) ++ [0]

/-- A length in a field of twelve bytes: in octal digits, or in binary where these are too few. -/
def sizeField (size : Nat) : Bytes :=
  if size < 0o100000000000 then octal 11 size else [0x80, 0, 0, 0] ++ Bytes.ofNatBE 8 size

def textField (length : Nat) (text : Bytes) : Bytes :=
  text ++ Bytes.zeros (length - text.length)

structure HeaderFields where
  name : Bytes
  mode : UInt32
  size : Nat
  kind : UInt8
  link : Bytes

namespace HeaderFields

def before (fields : HeaderFields) : Bytes :=
  textField 100 fields.name ++ octal 7 fields.mode.toNat ++ octal 7 0 ++ octal 7 0 ++
    sizeField fields.size ++ octal 11 0

def after (fields : HeaderFields) : Bytes :=
  textField (blockSize - 156) <|
    fields.kind :: textField 100 fields.link ++ [0x75, 0x73, 0x74, 0x61, 0x72, 0x20, 0x20, 0]

/-- The sum of all bytes, with those of the checksum field counted as blanks. -/
def sum (fields : HeaderFields) : Nat :=
  (fields.before ++ fields.after).foldl (· + ·.toNat) (8 * 32)

def block (fields : HeaderFields) : Bytes := fields.before ++ octal 7 fields.sum ++ fields.after

end HeaderFields

def padded (data : Bytes) : Bytes := data ++ Bytes.zeros (Bytes.padding blockSize data.length)

/-- The bytes of a path or link target that its field holds. -/
def fieldSize : Nat := 100

/-- The field of a path or link target in the course of being filled. -/
structure Slot where
  written : Bytes
  /-- What the field holds behind the bytes that were written. -/
  behind : Bytes

namespace Slot

def blank : Slot := ⟨[], Bytes.zeros fieldSize⟩

def bytes (slot : Slot) : Bytes := slot.written ++ slot.behind

/-- The field with nothing written yet; what it holds stays there. -/
def rewound (slot : Slot) : Slot := ⟨[], slot.bytes⟩

/-- Writes a piece and, where there is room, a zero byte behind it, over which the next piece is
written. A piece that does not fit or has a zero byte is refused. -/
def write? (slot : Slot) (piece : Bytes) : Option Slot :=
  if slot.behind.length < piece.length ∨ 0 ∈ piece then none
  else some ⟨slot.written ++ piece, (slot.behind.drop piece.length).set 0 0⟩

/-- Writes pieces up to the first that is refused or is none, and tells whether all were written. -/
def fill (slot : Slot) : List (Option Bytes) → Slot × Bool
  | [] => (slot, true)
  | piece :: rest =>
    match piece.bind slot.write? with
    | some next => next.fill rest
    | none => (slot, false)

end Slot

def slash : Bytes := [0x2F]

/-- The components of a path: the root is one, empty ones are none, and `.` is one only where the
path begins with it. -/
def components (path : Bytes) : List Bytes :=
  match path.splitOn 0x2F with
  | [] => []
  | first :: rest =>
    (if path.head? = some 0x2F then [slash] else if first = [] then [] else [first]) ++
      rest.filter fun component => component != [] && component != [0x2E]

/-- A slash where the path ends with one. -/
def trailingSlash (path : Bytes) : List (Option Bytes) :=
  if path.getLast? = some 0x2F then [some slash] else []

/-- The pieces that components are written in, with slashes between them but none behind the root.
A component that is not allowed, given those after it, is no piece. -/
def pieces (allowed : Bytes → List Bytes → Bool) : Option Bytes → List Bytes → List (Option Bytes)
  | _, [] => []
  | before, component :: after =>
    (if !allowed component after then [none]
      else if before.any (· != slash) then [some slash, some component]
      else [some component]) ++ pieces allowed (some component) after

/-- The pieces of a path. It must be relative and have a component; a leading `.` is left out unless
it is all there is. Only at the end of a path that was cut may `..` stand. -/
def pathPieces (path : Bytes) (isCut : Bool) : List (Option Bytes) :=
  let all := components path
  let kept := if all.length = 1 then all else all.filter (· != [0x2E])
  let allowed (component : Bytes) (after : List Bytes) : Bool :=
    component != slash && (component != [0x2E, 0x2E] || isCut && after.isEmpty)
  if all = [] then [none] else pieces allowed none kept ++ trailingSlash path

/-- The pieces of a link target, which may have any components. -/
def linkPieces (target : Bytes) : List (Option Bytes) :=
  let all := components target
  if all = [] then [none] else pieces (fun _ _ => true) none all ++ trailingSlash target

/-- The longest beginning of a text that is whole characters and fits its field. -/
def beginning (text : Bytes) : Bytes :=
  let cut := text.take fieldSize
  match (List.range 4).find? fun less => Utf8.isValid (cut.take (cut.length - less)) with
  | some less => cut.take (cut.length - less)
  | none => cut

/-- An entry that carries a long path or link target, ended by a zero byte. -/
def longText (kind : UInt8) (text : Bytes) : Bytes :=
  let header : HeaderFields :=
    ⟨Bytes.ofText "././@LongLink", 0o644, text.length + 1, kind, []⟩
  header.block ++ padded (text ++ [0])

/-- The name field of a path, and the entry in front that carries a long one. The beginning of a
long path is written over what its pieces left in the field. -/
def placePath (path : Bytes) : Bytes × Bytes :=
  match Slot.blank.fill (pathPieces path false) with
  | (slot, true) => (slot.bytes, [])
  | (slot, false) =>
    ((slot.rewound.fill (pathPieces (beginning path) true)).1.bytes, longText 0x4C path)

/-- The link field of a target, and the entry in front that carries a long one. The pieces of a long
target that did fit stay in the field. -/
def placeLink (target : Bytes) : Bytes × Bytes :=
  match Slot.blank.fill (linkPieces target) with
  | (slot, true) => (slot.bytes, [])
  | (slot, false) => (slot.bytes, longText 0x4B target)

/-- A regular file or a directory. -/
def withData (kind : UInt8) (path : String) (mode : UInt32) (data : Bytes) : Bytes :=
  let (name, longName) := placePath (Bytes.ofText path)
  let header : HeaderFields := ⟨name, mode, data.length, kind, []⟩
  longName ++ header.block ++ padded data

def withTarget (kind : UInt8) (path target : String) : Bytes :=
  let (name, longName) := placePath (Bytes.ofText path)
  let (link, longLink) := placeLink (Bytes.ofText target)
  let header : HeaderFields := ⟨name, 0o777, 0, kind, link⟩
  longName ++ longLink ++ header.block

def ending : Bytes := Bytes.zeros (2 * blockSize)

end Writer

end ImageAudit.Tar
