import ImageAudit.Rpm.HashFile

/-! # Writing hash files

The first page describes the file. Hash pages follow, each listing up to 150 pairs of a running
number and the place of a value: the slots grow from the page header on, the items from the end of
the page down. The values lie behind them, each in its own chain of overflow pages; an empty value
takes one page too.
-/

namespace ImageAudit.Rpm.HashFile

/-- The form in which a hash file is written. -/
structure Writer where
  order : ByteOrder
  pageSize : Nat
  deriving DecidableEq, Repr

namespace Writer

/-- Pages of 4096 bytes, least significant byte first. -/
def standard : Writer := ⟨.little, 4096⟩

/-- The most pairs that a hash page lists. -/
def pairsPerPage : Nat := 150

def short (writer : Writer) (value : Nat) : Bytes := Bytes.ofNatIn writer.order 2 value

def word (writer : Writer) (value : Nat) : Bytes := Bytes.ofNatIn writer.order 4 value

/-- The page with a field written over it. -/
def overwrite (page : Bytes) (offset : Nat) (field : Bytes) : Bytes :=
  page.take offset ++ field ++ page.drop (offset + field.length)

def withPageHeader (writer : Writer) (number previous next entries free type : Nat)
    (page : Bytes) : Bytes :=
  overwrite page 8 <| writer.word number ++ writer.word previous ++ writer.word next ++
    writer.short entries ++ writer.short free ++ [0, UInt8.ofNat type]

/-- The bytes of a value that one overflow page holds. -/
def pageCapacity (writer : Writer) : Nat := writer.pageSize - pageHeaderSize

/-- The parts of a value, one for each page of its chain. -/
def parts (writer : Writer) (value : Bytes) : List Bytes :=
  if value = [] then [[]] else (Bytes.chunks writer.pageCapacity value).toList

/-- The first page of each value's chain, when the chains begin at `free`, and the page after the
last chain. -/
def chainStarts (writer : Writer) (free : Nat) : List Bytes → List Nat × Nat
  | [] => ([], free)
  | value :: rest =>
    let (starts, last) := writer.chainStarts (free + (writer.parts value).length) rest
    (free :: starts, last)

def metaPage (writer : Writer) (lastPage values : Nat) : Bytes :=
  overwrite (overwrite (overwrite (overwrite (Bytes.zeros writer.pageSize)
    12 (writer.word magic ++ writer.word 9 ++ writer.word writer.pageSize))
    25 [UInt8.ofNat metaPageType])
    32 (writer.word lastPage))
    40 (writer.word values ++ writer.word values)

/-- A hash page in the making. -/
structure Listing where
  page : Bytes
  /-- Where the item written last begins. -/
  cursor : Nat
  /-- Where the next slot lies. -/
  slot : Nat

/-- List one more value: its running number and its place. -/
def listValue (writer : Writer) (listing : Listing) (value : Nat × Nat × Nat) : Listing :=
  let (position, first, length) := value
  let key := listing.cursor - 5
  let place := key - placeSize
  let page := overwrite listing.page key
    (UInt8.ofNat inlineItemType :: Bytes.ofNatLE 4 (position + 1))
  let page := overwrite page listing.slot (writer.short key)
  let page := overwrite page place [UInt8.ofNat placeItemType]
  let page := overwrite page (place + 4) (writer.word first ++ writer.word length)
  let page := overwrite page (listing.slot + 2) (writer.short place)
  ⟨page, place, listing.slot + 4⟩

/-- The hash page that lists the values, each given as its position, first page and length. -/
def hashPage (writer : Writer) (number : Nat) (values : List (Nat × Nat × Nat)) : Bytes :=
  let listing := values.foldl writer.listValue
    ⟨Bytes.zeros writer.pageSize, writer.pageSize, pageHeaderSize⟩
  writer.withPageHeader number 0 0 (values.length * 2) listing.cursor hashPageType listing.page

def overflowPage (writer : Writer) (number previous next : Nat) (content : Bytes) : Bytes :=
  writer.withPageHeader number previous next 1 content.length overflowPageType
    (overwrite (Bytes.zeros writer.pageSize) pageHeaderSize content)

def chain (writer : Writer) (first : Nat) (value : Bytes) : List Bytes :=
  let parts := writer.parts value
  parts.zipIdx.map fun (content, index) =>
    writer.overflowPage (first + index) (if index = 0 then 0 else first + index - 1)
      (if index + 1 = parts.length then 0 else first + index + 1) content

/-- The lists of at most `size` items each. -/
def groups (size : Nat) : Nat → List α → List (List α)
  | 0, _ => []
  | _, [] => []
  | fuel + 1, items => items.take size :: groups size fuel (items.drop size)

/-- The bytes of a hash file that holds the values in order. -/
def encode (writer : Writer) (values : List Bytes) : Bytes :=
  let listed := values.length
  let hashPages := max 1 ((listed + pairsPerPage - 1) / pairsPerPage)
  let (starts, free) := writer.chainStarts (1 + hashPages) values
  let places := (starts.zip (values.map List.length)).zipIdx.map fun ((first, length), position) =>
    (position, first, length)
  let lists := match groups pairsPerPage listed places with
    | [] => [[]]
    | lists => lists
  writer.metaPage (free - 1) listed ++
    lists.zipIdx.flatMap (fun (list, index) => writer.hashPage (1 + index) list) ++
    (starts.zip values).flatMap fun (first, value) => (writer.chain first value).flatten

end Writer

end ImageAudit.Rpm.HashFile
