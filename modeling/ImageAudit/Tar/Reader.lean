import ImageAudit.ByteStream
import ImageAudit.Tar.Header
import ImageAudit.Tar.Pax

/-! # Reading archives

An archive is read front to back. The reader knows where the next header lies; what an entry's user
has not read of its data is skipped before the next header. An entry may be preceded by others that
give its long path, its long link target, or records about it. The archive ends with a block of
zeros or where the stream ends between entries. A fault leaves the reader where it occurred, so it
stays known how far the stream was read.
-/

namespace ImageAudit.Tar

inductive Fault where
  | streamFailed
  | partialBlock
  | dataCut
  | checksum
  | number
  | sizeOverflow
  | repeatedExtension
  | lonelyExtension
  | sparseMap
  deriving DecidableEq, Repr

def Fault.message : Fault → String
  | streamFailed => "stream cannot be read"
  | partialBlock => "failed to read entire block"
  | dataCut => "unexpected end while skipping data"
  | checksum => "header checksum mismatch"
  | number => "numeric field is no number"
  | sizeOverflow => "size overflow"
  | repeatedExtension => "two extensions of one kind describe the same member"
  | lonelyExtension => "an extension describes a member that is not there"
  | sparseMap => "sparse map does not fit the data"

structure Reader where
  rest : Bytes
  /-- How many bytes were read. -/
  position : Nat
  /-- Where the latest read began. -/
  lastRead : Option Nat
  /-- Whether the stream ends after the rest; if not, it fails there. -/
  isWhole : Bool
  /-- Where the next header begins. -/
  nextHeader : Nat
  deriving DecidableEq, Repr

namespace Reader

def new (stream : ByteStream) : Reader := ⟨stream.content, 0, none, stream.isWhole, 0⟩

end Reader

abbrev Reading := ExceptT Fault (StateM Reader)

namespace Reading

/-- Fails unless the value is there. -/
def need (fault : Fault) : Option α → Reading α
  | some value => return value
  | none => throw fault

/-- The next bytes, fewer where the stream ends. When it ends, the read that found so began at the
end. -/
def take (count : Nat) : Reading Bytes := do
  let reader ← get
  let read := reader.rest.take count
  if count = 0 then return []
  set { reader with
    rest := reader.rest.drop count
    position := reader.position + read.length
    lastRead := some (if read.length < count then reader.position + read.length
      else reader.position) }
  if read.length < count && !reader.isWhole then throw .streamFailed
  return read

def skipTo (target : Nat) : Reading Unit := do
  let distance := target - (← get).position
  let skipped ← take distance
  if skipped.length < distance then throw .dataCut

/-- The next block; none at the end of the stream. -/
def block? : Reading (Option Bytes) := do
  let read ← take blockSize
  if read = [] then return none
  if read.length < blockSize then throw .partialBlock
  return some read

end Reading

/-- The length of data with the zeros that fill its last block. -/
def storedSize (size : Nat) : Nat := (size + (blockSize - 1)) / blockSize * blockSize

/-- The header and data length of an entry, extensions included. -/
structure RawEntry where
  header : Header
  size : Nat
  deriving DecidableEq, Repr

/-- The length of an entry's data: that of the records for it, which do not apply to extensions, or
that in its header. -/
def dataSize (header : Header) (records : Option Bytes) (headerSize : Nat) : Nat :=
  if header.kind.isExtension then headerSize
  else (records.bind PaxRecord.size?).getD headerSize

/-- Reads the next header, extensions included; none at the end of the archive. -/
def nextRaw? (records : Option Bytes) : Reading (Option RawEntry) := do
  Reading.skipTo (← get).nextHeader
  match ← Reading.block? with
  | none => return none
  | some block =>
    if block.all (· == 0) then return none
    let header : Header := ⟨block⟩
    if !header.isIntact then throw .checksum
    let headerSize ← Reading.need .number header.size?
    let size := dataSize header records headerSize
    let next := (← get).nextHeader + blockSize + storedSize size
    if 0x10000000000000000 ≤ size + (blockSize - 1) ∨ 0x10000000000000000 ≤ next then
      throw .sizeOverflow
    modify fun reader => { reader with nextHeader := next }
    return some ⟨header, size⟩

/-- What extensions tell about the next entry. -/
structure Extensions where
  name : Option Bytes
  link : Option Bytes
  records : Option Bytes
  deriving DecidableEq, Repr

namespace Extensions

def empty : Extensions := ⟨none, none, none⟩

/-- Text of an extension without the zero byte that may end it. -/
def unterminated (text : Bytes) : Bytes :=
  if text.getLast? = some 0 then text.dropLast else text

/-- The path of an entry: a long name, else a record, else the header's. -/
def path (extensions : Extensions) (header : Header) : Bytes :=
  match extensions.name with
  | some name => unterminated name
  | none => (extensions.records.bind (PaxRecord.find? · "path")).getD header.path

/-- The link target of an entry: a long one, else a record, else the header's. -/
def link? (extensions : Extensions) (header : Header) : Option Bytes :=
  match extensions.link with
  | some link => some (unterminated link)
  | none => (extensions.records.bind (PaxRecord.find? · "linkpath")).or header.link?

/-- Whether an extension of the kind was told already. -/
def has (extensions : Extensions) : EntryKind → Bool
  | .longName => extensions.name.isSome
  | .longLink => extensions.link.isSome
  | .paxRecords => extensions.records.isSome
  | _ => false

/-- What is told together with one more extension of the given kind. -/
def add (extensions : Extensions) (kind : EntryKind) (data : Bytes) : Extensions :=
  match kind with
  | .longName => { extensions with name := some data }
  | .longLink => { extensions with link := some data }
  | .paxRecords => { extensions with records := some data }
  | _ => extensions

end Extensions

/-- A sparse file's map in the course of being checked. -/
structure SparseMap where
  /-- Where the pieces so far end in the file. -/
  reached : Nat
  /-- How much of the data the pieces so far take. -/
  used : Nat
  deriving DecidableEq, Repr

/-- Adds a piece of the map, an offset and a length of twelve bytes each; one without them is left
out. Pieces are in order, and each but the last fills whole blocks of the data. -/
def SparseMap.add (size : Nat) (map : SparseMap) (piece : Bytes) : Reading SparseMap := do
  if piece.getD 0 0 = 0 ∨ piece.getD 12 0 = 0 then return map
  let offset ← Reading.need .number (number? (piece.slice 0 12))
  let length ← Reading.need .number (number? (piece.slice 12 12))
  if length ≠ 0 ∧ map.used % blockSize ≠ 0 then throw .sparseMap
  if offset < map.reached ∨ 0x10000000000000000 ≤ offset + length ∨ size < map.used + length then
    throw .sparseMap
  return ⟨offset + length, map.used + length⟩

def sparsePieces (field : Bytes) : List Bytes := (Bytes.chunks 24 field).toList

/-- Adds the pieces of further blocks, up to one that is not continued. The fuel bounds their
number. -/
def readSparseBlocks (size : Nat) : Nat → SparseMap → Reading SparseMap
  | 0, _ => throw .sparseMap
  | fuel + 1, map => do
    let block ← Reading.need .sparseMap (← Reading.block?)
    modify fun reader => { reader with nextHeader := reader.nextHeader + blockSize }
    let map ← (sparsePieces (block.slice 0 504)).foldlM (SparseMap.add size) map
    if block.getD 504 0 = 1 then readSparseBlocks size fuel map else return map

/-- Checks the map of a sparse file against the length of its data and of the file. -/
def checkSparse (entry : RawEntry) : Reading Unit := do
  if entry.header.kind ≠ .sparse then return
  if !entry.header.isGnu then throw .sparseMap
  let map ← (sparsePieces (entry.header.field 386 96)).foldlM (SparseMap.add entry.size) ⟨0, 0⟩
  let map ←
    if entry.header.block.getD 482 0 = 1 then
      readSparseBlocks entry.size ((← get).rest.length + 1) map
    else pure map
  let realSize ← Reading.need .number (number? (entry.header.field 483 12))
  if map.reached ≠ realSize ∨ map.used < entry.size then throw .sparseMap

structure Entry where
  header : Header
  path : Bytes
  link? : Option Bytes
  size : Nat
  deriving DecidableEq, Repr

namespace Entry

def kind (entry : Entry) : EntryKind := entry.header.kind

/-- The data of the entry, up to a limit; fewer bytes where the stream ends. -/
def content (entry : Entry) (limit : Nat) : Reading Bytes := Reading.take (min entry.size limit)

end Entry

/-- Whether an entry is an extension that tells about the next one. -/
def RawEntry.describesNext (entry : RawEntry) : Bool :=
  entry.header.isRecognized &&
    (entry.header.kind = .longName || entry.header.kind = .longLink ||
      entry.header.kind = .paxRecords)

/-- Reads the next entry with the extensions before it. There is at most one extension of each kind,
so the fuel is never used up. -/
def nextAfter? : Nat → Extensions → Reading (Option Entry)
  | 0, _ => throw .repeatedExtension
  | fuel + 1, extensions => do
    match ← nextRaw? extensions.records with
    | none =>
      if extensions ≠ Extensions.empty then throw .lonelyExtension
      return none
    | some entry =>
      if entry.describesNext then
        if extensions.has entry.header.kind then throw .repeatedExtension
        let data ← Reading.take entry.size
        nextAfter? fuel (extensions.add entry.header.kind data)
      else
        checkSparse entry
        return some
          ⟨entry.header, extensions.path entry.header, extensions.link? entry.header, entry.size⟩

/-- Reads the next entry; none at the end of the archive. -/
def next? : Reading (Option Entry) := nextAfter? 4 Extensions.empty

end ImageAudit.Tar
