import ImageAudit.Rpm.Header
import ImageAudit.Rpm.Tag

/-! # Writing package headers

A header is built field by field. Each field appends its values to the data store, numbers at a
place that is a multiple of their width, and adds an entry to the index. The finished header is
wrapped in a region, whose entry stands first in the index and whose trailer closes the store.
-/

namespace ImageAudit.Rpm

/-- A whole number in 32 bits of two's complement. -/
def word32 (value : Int) : Bytes := Bytes.ofNatBE 4 (value % 0x100000000).toNat

def IndexEntry.bytes (entry : IndexEntry) : Bytes :=
  word32 entry.tag ++ Bytes.ofNatBE 4 entry.type ++ word32 entry.offset ++
    Bytes.ofNatBE 4 entry.count

inductive HeaderField where
  | string (tag : Int) (value : String)
  | strings (tag : Int) (values : List String)
  | int16 (tag : Int) (values : List UInt16)
  | int32 (tag : Int) (values : List UInt32)
  /-- An entry as it stands, with no values of its own. -/
  | raw (entry : IndexEntry)
  deriving DecidableEq

/-- A header in the making: the index and the data store so far. -/
structure HeaderBuilder where
  entries : List IndexEntry
  store : Bytes
  deriving DecidableEq, Repr

namespace HeaderBuilder

def empty : HeaderBuilder := ⟨[], []⟩

/-- A text with the zero byte that ends it. -/
def terminated (text : String) : Bytes := Bytes.ofText text ++ [0]

/-- Append values at a multiple of `unit`, with their entry. -/
def append (builder : HeaderBuilder) (tag : Int) (type unit count : Nat) (values : Bytes) :
    HeaderBuilder :=
  let aligned := builder.store ++ Bytes.zeros (Bytes.padding unit builder.store.length)
  ⟨builder.entries ++ [⟨tag, type, aligned.length, count⟩], aligned ++ values⟩

def add (builder : HeaderBuilder) : HeaderField → HeaderBuilder
  | .string tag value => builder.append tag 6 1 1 (terminated value)
  | .strings tag values => builder.append tag 8 1 values.length (values.flatMap terminated)
  | .int16 tag values =>
    builder.append tag 3 2 values.length
      (values.flatMap fun value => Bytes.ofNatBE 2 value.toNat)
  | .int32 tag values =>
    builder.append tag 4 4 values.length
      (values.flatMap fun value => Bytes.ofNatBE 4 value.toNat)
  | .raw entry => ⟨builder.entries ++ [entry], builder.store⟩

def ofFields (fields : List HeaderField) : HeaderBuilder := fields.foldl add empty

/-- The data store brought to a multiple of four, where the trailer begins. -/
def paddedStore (builder : HeaderBuilder) : Bytes :=
  builder.store ++ Bytes.zeros (Bytes.padding 4 builder.store.length)

/-- The bytes of the header, wrapped in its region. -/
def finish (builder : HeaderBuilder) : Bytes :=
  let count := builder.entries.length + 1
  let region : IndexEntry := ⟨Tag.immutableRegion, 7, builder.paddedStore.length, 16⟩
  let trailer : IndexEntry := ⟨Tag.immutableRegion, 7, -(count * IndexEntry.size : Nat), 16⟩
  let store := builder.paddedStore ++ trailer.bytes
  Bytes.ofNatBE 4 count ++ Bytes.ofNatBE 4 store.length ++
    (region :: builder.entries).flatMap IndexEntry.bytes ++ store

end HeaderBuilder

end ImageAudit.Rpm
