import ImageAudit.Text
import ImageAudit.Text.Utf8

/-! # Archive headers

Each entry of an archive begins with a header of one block: text fields, ended by a zero byte where
they do not fill their place, and numbers written in octal digits. Two marks tell the dialects
apart: one dialect may split a long path in two fields, the other carries long names in entries of
their own.
-/

namespace ImageAudit.Tar

def blockSize : Nat := 512

inductive EntryKind where
  | regular
  | hardLink
  | symbolicLink
  | directory
  /-- Records for the next entry. -/
  | paxRecords
  /-- Records for all entries that follow. -/
  | globalRecords
  /-- The path of the next entry. -/
  | longName
  /-- The link target of the next entry. -/
  | longLink
  /-- A file with holes. -/
  | sparse
  /-- A device, a pipe, or a kind that is not known. -/
  | other
  deriving DecidableEq, Repr

namespace EntryKind

def ofByte (byte : UInt8) : EntryKind :=
  if byte = 0 ∨ byte = 0x30 then regular
  else if byte = 0x31 then hardLink
  else if byte = 0x32 then symbolicLink
  else if byte = 0x35 then directory
  else if byte = 0x78 then paxRecords
  else if byte = 0x67 then globalRecords
  else if byte = 0x4C then longName
  else if byte = 0x4B then longLink
  else if byte = 0x53 then sparse
  else other

/-- Whether the entry only tells something about other entries. -/
def isExtension : EntryKind → Bool
  | paxRecords | globalRecords | longName | longLink => true
  | _ => false

end EntryKind

/-- The number that octal digits write: a plus sign may stand in front, white space around, and 64
bits must hold it. -/
def octalOfText? (text : String) : Option Nat :=
  let chars := (Text.trim text).toList
  let digits := if chars.head? = some '+' then chars.drop 1 else chars
  if digits = [] ∨ digits.any (fun c => c < '0' || '7' < c) then none
  else
    let value := digits.foldl (fun value c => value * 8 + (c.toNat - 48)) 0
    if value < 0x10000000000000000 then some value else none

def octal? (field : Bytes) : Option Nat := (Utf8.strict? field.untilZero).bind octalOfText?

/-- The number in a field of twelve bytes: in octal digits, or, where the highest bit is set, binary
with the last eight bytes. -/
def number? (field : Bytes) : Option Nat :=
  if (field.getD 0 0).toNat < 128 then octal? field else some (Bytes.natBE (field.drop 4))

structure Header where
  block : Bytes
  deriving DecidableEq, Repr

namespace Header

def field (header : Header) (offset length : Nat) : Bytes := header.block.slice offset length

def checksumOffset : Nat := 148

/-- The sum of all bytes, with those of the checksum field counted as blanks. -/
def sum (header : Header) : Nat :=
  (header.block.take checksumOffset ++ header.block.drop (checksumOffset + 8)).foldl (· + ·.toNat)
    (8 * 32)

def isIntact (header : Header) : Bool :=
  match octal? (header.field checksumOffset 8) with
  | some stored => stored % 0x100000000 == header.sum
  | none => false

def mode? (header : Header) : Option UInt32 := (octal? (header.field 100 8)).map UInt32.ofNat

def size? (header : Header) : Option Nat := number? (header.field 124 12)

def kind (header : Header) : EntryKind := EntryKind.ofByte (header.block.getD 156 0)

/-- The dialect with split paths. -/
def isUstar (header : Header) : Bool :=
  header.field 257 8 == [0x75, 0x73, 0x74, 0x61, 0x72, 0, 0x30, 0x30]

/-- The dialect with long names and sparse files. -/
def isGnu (header : Header) : Bool :=
  header.field 257 8 == [0x75, 0x73, 0x74, 0x61, 0x72, 0x20, 0x20, 0]

/-- Whether the header is of a dialect that is known. -/
def isRecognized (header : Header) : Bool := header.isUstar || header.isGnu

def path (header : Header) : Bytes :=
  let name := (header.field 0 100).untilZero
  let directory := (header.field 345 155).untilZero
  if header.isUstar && directory != [] then directory ++ [0x2F] ++ name else name

def link? (header : Header) : Option Bytes :=
  let target := (header.field 157 100).untilZero
  if target = [] then none else some target

end Header

end ImageAudit.Tar
