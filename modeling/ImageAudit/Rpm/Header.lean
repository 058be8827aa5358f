import ImageAudit.Text.Utf8

/-! # Package headers

A package database holds one header for each package. A header is an index of entries over a data
store: each entry gives the type, the place and the number of the values of one tag. Region tags
wrap the others and carry no values of their own, so they are passed over. Of several entries for a
tag the last one counts. No read leaves the header: whatever is out of place is a fault.
-/

namespace ImageAudit.Rpm

inductive EntryType where
  | null
  | char
  | int8
  | int16
  | int32
  | int64
  | string
  | bin
  | stringArray
  | i18nString
  deriving DecidableEq, Repr

namespace EntryType

/-- The types in the order of their numbers. -/
def all : List EntryType :=
  [null, char, int8, int16, int32, int64, string, bin, stringArray, i18nString]

def ofNat? (number : Nat) : Option EntryType := all[number]?

/-- The type in messages. -/
def label : EntryType → String
  | null => "Null"
  | char => "Char"
  | int8 => "Int8"
  | int16 => "Int16"
  | int32 => "Int32"
  | int64 => "Int64"
  | string => "String"
  | bin => "Bin"
  | stringArray => "StringArray"
  | i18nString => "I18nString"

/-- The bytes of one number, for the types whose values are numbers. -/
def integerWidth? : EntryType → Option Nat
  | char | int8 => some 1
  | int16 => some 2
  | int32 => some 4
  | int64 => some 8
  | _ => none

end EntryType

inductive EntryFault where
  | offsetOutside (offset : Int) (storeSize : Nat)
  | tooManyStrings (count : Nat)
  | unterminated
  | notString (found : EntryType)
  | notStringArray (found : EntryType)
  | notInteger (found : EntryType)
  | valuesOverrun (count : Nat)
  deriving DecidableEq, Repr

def EntryFault.message : EntryFault → String
  | offsetOutside offset storeSize =>
    s!"offset {offset} outside data store of {storeSize} bytes"
  | tooManyStrings count => s!"string count {count} exceeds data store"
  | unterminated => "unterminated string"
  | notString found => "expected string, found " ++ found.label
  | notStringArray found => "expected string array, found " ++ found.label
  | notInteger found => "expected integer, found " ++ found.label
  | valuesOverrun count => s!"{count} values overrun data store"

inductive LengthFault where
  | noCounts (size : Nat)
  | indexCount (count : Nat)
  | storeSize (size : Nat)
  | cutShort (size needed : Nat)
  deriving DecidableEq, Repr

def LengthFault.message : LengthFault → String
  | noCounts size => s!"{size} bytes, need at least 8"
  | indexCount count => s!"invalid index count {count}"
  | storeSize size => s!"invalid data size {size}"
  | cutShort size needed => s!"{size} bytes, index and data need {needed}"

/-- How the parts of a file list disagree. -/
inductive FileListFault where
  | directoryIndexes (indexes names : Nat)
  | directoryIndex (index : Int) (directories : Nat)
  | attributes (tag : String) (count files : Nat)
  deriving DecidableEq, Repr

def FileListFault.message : FileListFault → String
  | directoryIndexes indexes names => s!"{indexes} dir indexes for {names} basenames"
  | directoryIndex index directories => s!"dir index {index} out of range ({directories} dirnames)"
  | attributes tag count files => s!"{tag} has {count} entries for {files} files"

inductive HeaderFault where
  | truncated (fault : LengthFault)
  | unknownType (tag : Int) (type : Nat)
  | badEntry (tag : Int) (fault : EntryFault)
  | missingTag (name : String)
  | fileList (fault : FileListFault)
  deriving DecidableEq, Repr

def HeaderFault.message : HeaderFault → String
  | truncated fault => "header truncated: " ++ fault.message
  | unknownType tag type => s!"tag {tag}: unknown data type {type}"
  | badEntry tag fault => s!"tag {tag}: {fault.message}"
  | missingTag name => "missing required tag " ++ name
  | fileList fault => "file list inconsistent: " ++ fault.message

structure IndexEntry where
  tag : Int
  type : Nat
  offset : Int
  count : Nat
  deriving DecidableEq, Repr

namespace IndexEntry

def size : Nat := 16

def ofBytes (data : Bytes) : IndexEntry where
  tag := Bytes.signed 4 (data.slice 0 4).natBE
  type := (data.slice 4 4).natBE
  offset := Bytes.signed 4 (data.slice 8 4).natBE
  count := (data.slice 12 4).natBE

def isRegion (entry : IndexEntry) : Bool := 61 ≤ entry.tag && entry.tag ≤ 63

end IndexEntry

/-- The values of one tag: their type, where they begin in the data store, and their number. -/
structure HeaderEntry where
  tag : Int
  type : EntryType
  offset : Nat
  count : Nat
  deriving DecidableEq, Repr

/-- An entry whose type is known and whose values begin inside the data store. -/
def IndexEntry.check (storeSize : Nat) (entry : IndexEntry) : Except HeaderFault HeaderEntry :=
  match EntryType.ofNat? entry.type with
  | none => .error (.unknownType entry.tag entry.type)
  | some type =>
    if entry.offset < 0 ∨ storeSize < entry.offset then
      .error (.badEntry entry.tag (.offsetOutside entry.offset storeSize))
    else .ok ⟨entry.tag, type, entry.offset.toNat, entry.count⟩

/-- A header: its entries in index order, and its data store. -/
structure Header where
  entries : List HeaderEntry
  store : Bytes
  deriving DecidableEq, Repr

namespace Header

def maxEntries : Nat := 0xffff

/-- The most bytes that a data store may have. -/
def maxStoreSize : Nat := 0x0fffffff

/-- The header stored in the bytes: two counts, the index, and the data store. What follows the
data store is left alone. -/
def parse (blob : Bytes) : Except HeaderFault Header :=
  let count := (blob.slice 0 4).natBE
  let storeSize := (blob.slice 4 4).natBE
  let storeStart := 8 + count * IndexEntry.size
  if blob.length < 8 then .error (.truncated (.noCounts blob.length))
  else if count = 0 ∨ maxEntries < count then .error (.truncated (.indexCount count))
  else if maxStoreSize < storeSize then .error (.truncated (.storeSize storeSize))
  else if blob.length < storeStart + storeSize then
    .error (.truncated (.cutShort blob.length (storeStart + storeSize)))
  else do
    let index := Bytes.chunks IndexEntry.size (blob.slice 8 (count * IndexEntry.size))
    let stored := (index.toList.map IndexEntry.ofBytes).filter (!·.isRegion)
    return ⟨← stored.mapM (·.check storeSize), blob.slice storeStart storeSize⟩

/-- The entry that counts for a tag. -/
def entry? (header : Header) (tag : Int) : Option HeaderEntry :=
  (header.entries.filter (·.tag = tag)).getLast?

def has (header : Header) (tag : Int) : Bool := (header.entry? tag).isSome

/-- The strings read so far, last first, then `count` more, each ended by a zero byte. -/
def takeStrings? (read : List String) : Nat → Bytes → Option (List String)
  | 0, _ => some read.reverse
  | count + 1, data =>
    match data.dropWhile (· != 0) with
    | [] => none
    | _ :: rest => takeStrings? (Utf8.lossy data.untilZero :: read) count rest

/-- The first `count` strings of an entry. Each takes at least its zero byte. -/
def readStrings (header : Header) (entry : HeaderEntry) (count : Nat) :
    Except HeaderFault (List String) :=
  if header.store.length - entry.offset < count then
    .error (.badEntry entry.tag (.tooManyStrings count))
  else
    match takeStrings? [] count (header.store.drop entry.offset) with
    | some strings => .ok strings
    | none => .error (.badEntry entry.tag .unterminated)

/-- The string of a tag; the first one where there are several. -/
def string? (header : Header) (tag : Int) : Except HeaderFault (Option String) :=
  match header.entry? tag with
  | none => .ok none
  | some entry =>
    match entry.type with
    | .string | .stringArray | .i18nString =>
      if entry.count = 0 then .ok none
      else (header.readStrings entry 1).map (·.head?)
    | found => .error (.badEntry tag (.notString found))

def strings? (header : Header) (tag : Int) : Except HeaderFault (Option (List String)) :=
  match header.entry? tag with
  | none => .ok none
  | some entry =>
    match entry.type with
    | .stringArray | .i18nString => (header.readStrings entry entry.count).map some
    | .string => (header.readStrings entry 1).map some
    | found => .error (.badEntry tag (.notStringArray found))

/-- The numbers of a tag, whatever their width. -/
def integers? (header : Header) (tag : Int) : Except HeaderFault (Option (List Int)) :=
  match header.entry? tag with
  | none => .ok none
  | some entry =>
    match entry.type.integerWidth? with
    | none => .error (.badEntry tag (.notInteger entry.type))
    | some width =>
      if header.store.length < entry.offset + entry.count * width then
        .error (.badEntry tag (.valuesOverrun entry.count))
      else
        let field := header.store.slice entry.offset (entry.count * width)
        .ok (some ((Bytes.chunks width field).toList.map fun value =>
          Bytes.signed width value.natBE))

def integer? (header : Header) (tag : Int) : Except HeaderFault (Option Int) :=
  (header.integers? tag).map fun values => values.bind (·.head?)

end Header

end ImageAudit.Rpm
