import ImageAudit.Rpm.Page

/-! # Hash files

A hash file is a sequence of pages of one size, in one of the two byte orders; the first page says
which. Hash pages list keys and values in turn. A value that is too large for its page, as a package
header is, lies in a chain of overflow pages, and its place is listed instead; only such values
are read. A chain that is longer than the file has pages must loop.
-/

namespace ImageAudit.Rpm

namespace HashFile

inductive Fault where
  | tooSmall (size : Nat)
  | notHashFile
  | encrypted
  | metaPageType (type : Nat)
  | pageSize (size : Nat)
  | truncated (pages size : Nat)
  | beyondLastPage (page last : Nat)
  | chainLoops (first : Nat)
  | notOverflow (page type : Nat)
  | overflowLength (page : Nat)
  | chainTooShort (first found needed : Nat)
  | oddEntryCount (page count : Nat)
  | indexOverruns (page : Nat)
  | itemOutOfRange (page offset : Nat)
  | entryTruncated (page : Nat)
  deriving DecidableEq, Repr

def Fault.message : Fault → String
  | tooSmall size => s!"file too small ({size} bytes)"
  | notHashFile => "not a Berkeley DB hash file"
  | encrypted => "encrypted databases are not supported"
  | metaPageType type => s!"unexpected metadata page type {type}"
  | pageSize size => s!"invalid page size {size}"
  | truncated pages size => s!"truncated: {pages} pages declared, {size} bytes present"
  | beyondLastPage page last => s!"page {page} beyond last page {last}"
  | chainLoops first => s!"overflow chain from page {first} loops"
  | notOverflow page type => s!"page {page} has type {type}, expected overflow"
  | overflowLength page => s!"page {page} overflows its length"
  | chainTooShort first found needed =>
    s!"overflow chain from page {first} holds {found} of {needed} bytes"
  | oddEntryCount page count => s!"hash page {page} has odd entry count {count}"
  | indexOverruns page => s!"hash page {page} index overruns page"
  | itemOutOfRange page offset => s!"hash page {page} item offset {offset} out of range"
  | entryTruncated page => s!"hash page {page} off-page entry truncated"

def magic : Nat := 0x00061561

/-- The bytes in front of the content of a page. -/
def pageHeaderSize : Nat := 26

/-- The bytes of an entry that gives the place of a value. -/
def placeSize : Nat := 12

def minPageSize : Nat := 512

def maxPageSize : Nat := 65536

/-- A hash page whose keys are in no order. -/
def unsortedPageType : Nat := 2

def overflowPageType : Nat := 7

def metaPageType : Nat := 8

def hashPageType : Nat := 13

/-- An item that gives the place of a value. -/
def placeItemType : Nat := 3

def inlineItemType : Nat := 1

end HashFile

/-- A hash file whose declared pages are all there. -/
structure HashFile where
  order : ByteOrder
  pageSize : Nat
  /-- The number of the last page; the first is page zero. -/
  lastPage : Nat
  pages : Array Page

namespace HashFile

def short (file : HashFile) (page : Page) (offset : Nat) : Nat :=
  (page.slice offset 2).natIn file.order

def word (file : HashFile) (page : Page) (offset : Nat) : Nat :=
  (page.slice offset 4).natIn file.order

/-- The byte order in which the mark of a hash file reads right. -/
def orderOf? (data : Bytes) : Option ByteOrder :=
  if (data.slice 12 4).natLE = magic then some .little
  else if (data.slice 12 4).natBE = magic then some .big
  else none

/-- A power of two between the smallest and the largest page. -/
def isPageSize (size : Nat) : Bool :=
  minPageSize ≤ size && size ≤ maxPageSize && 1 <<< size.log2 == size

def parse (data : Bytes) : Except Fault HashFile :=
  if data.length < minPageSize then .error (.tooSmall data.length)
  else
    match orderOf? data with
    | none => .error .notHashFile
    | some order =>
      let pageSize := (data.slice 20 4).natIn order
      let lastPage := (data.slice 32 4).natIn order
      let metaType := (data.getD 25 0).toNat
      if data.getD 24 0 ≠ 0 then .error .encrypted
      else if metaType ≠ metaPageType then .error (.metaPageType metaType)
      else if !isPageSize pageSize then .error (.pageSize pageSize)
      else if data.length < (lastPage + 1) * pageSize then
        .error (.truncated (lastPage + 1) data.length)
      else .ok ⟨order, pageSize, lastPage, (Bytes.chunks pageSize data).map List.toArray⟩

def page (file : HashFile) (number : Nat) : Except Fault Page :=
  if file.lastPage < number then .error (.beyondLastPage number file.lastPage)
  else .ok (file.pages.getD number #[])

/-- The content of an overflow page: all that follows the page header, but on the last page of a
chain only the part in use. -/
def payload (file : HashFile) (number : Nat) (page : Page) (isLast : Bool) :
    Except Fault Bytes :=
  if isLast then
    let used := file.short page 22
    if file.pageSize < pageHeaderSize + used then .error (.overflowLength number)
    else .ok (page.slice pageHeaderSize used)
  else .ok (page.toList.drop pageHeaderSize)

/-- The contents of the pages of a chain from a page on, in order. `hops` is how many more pages
the chain may have. -/
def followChain (file : HashFile) (first : Nat) :
    Nat → Nat → List Bytes → Except Fault (List Bytes)
  | _, 0, read => .ok read.reverse
  | 0, _, _ => .error (.chainLoops first)
  | hops + 1, number, read => do
    let page ← file.page number
    if page.byteAt 25 ≠ overflowPageType then throw (.notOverflow number (page.byteAt 25))
    let next := file.word page 16
    let content ← file.payload number page (next == 0)
    file.followChain first hops next (content :: read)

/-- The value of a given length in the chain that begins at a page. -/
def chainValue (file : HashFile) (first length : Nat) : Except Fault Bytes := do
  let content := (← file.followChain first file.lastPage first []).flatten
  if content.length < length then throw (.chainTooShort first content.length length)
  return content.take length

/-- The value listed in a slot of a hash page, when its place is listed there. -/
def slotValue? (file : HashFile) (number : Nat) (page : Page) (slot : Nat) :
    Except Fault (Option Bytes) := do
  let item := file.short page (pageHeaderSize + slot * 2)
  if file.pageSize ≤ item then throw (.itemOutOfRange number item)
  if page.byteAt item ≠ placeItemType then return none
  if file.pageSize < item + placeSize then throw (.entryTruncated number)
  return some (← file.chainValue (file.word page (item + 4)) (file.word page (item + 8)))

/-- Whether a page of this type lists keys and values. -/
def listsItems (type : Nat) : Bool := type == hashPageType || type == unsortedPageType

/-- The values of one page, in the order of their slots. Keys and values take turns, a key
first. -/
def pageValues (file : HashFile) (number : Nat) : Except Fault (List Bytes) := do
  let page ← file.page number
  if !listsItems (page.byteAt 25) then return []
  let count := file.short page 20
  if count % 2 ≠ 0 then throw (.oddEntryCount number count)
  if file.pageSize < pageHeaderSize + count * 2 then throw (.indexOverruns number)
  let values ← (List.range (count / 2)).mapM fun pair => file.slotValue? number page (2 * pair + 1)
  return values.filterMap id

def values (file : HashFile) : Except Fault (List Bytes) := do
  let pages ← (List.range file.lastPage).mapM fun index => file.pageValues (index + 1)
  return pages.flatten

def readValues (data : Bytes) : Except Fault (List Bytes) := do
  (← parse data).values

end HashFile

end ImageAudit.Rpm
