import ImageAudit.Proofs.Ranged
import ImageAudit.Proofs.Rpm.HashFile.Parsed

/-! # Reads of a hash file stay in range

Here a hash file is read from its bytes by steps that may leave their range: pages are cut out of
the data, fields out of their page, offsets are sums and products of machine words, and the pages of
a chain are counted in one. Each step meets its range because of what was checked before it, for
some of them when the file was parsed: the declared pages are there, a page is neither smaller than
its header nor so large that offsets outgrow their words. So this reader has the values and faults
of the plain one.
-/

namespace ImageAudit.Rpm.HashFile

open Bytes (slice)
open Ranged

namespace InRange

def short (file : HashFile) (page : Page) (offset : Nat) : Option Nat :=
  number file.order 2 page.toList offset

def word (file : HashFile) (page : Page) (offset : Nat) : Option Nat :=
  number file.order 4 page.toList offset

/-- The byte order in which the mark of a hash file reads right. -/
def order (data : Bytes) : Ranged Fault ByteOrder := do
  if (← number .little 4 data 12) = magic then return .little
  if (← number .big 4 data 12) = magic then return .big
  throw .notHashFile

/-- The hash file stored in the bytes. The size that the declared pages take is the largest word
where it outgrows one, and their number is told as a word of 32 bits. -/
def parse (data : Bytes) : Ranged Fault HashFile := do
  if data.length < minPageSize then throw (.tooSmall data.length)
  let order ← order data
  if (← byte data 24) ≠ 0 then throw .encrypted
  let metaType ← byte data 25
  if metaType.toNat ≠ metaPageType then throw (.metaPageType metaType.toNat)
  let pageSize ← number order 4 data 20
  if !isPageSize pageSize then throw (.pageSize pageSize)
  let lastPage ← number order 4 data 32
  let pages ← sum lastPage 1
  if data.length < min (pages * pageSize) (2 ^ 64 - 1) then
    let declared ← Ranged.word 32 (lastPage + 1)
    throw (.truncated declared data.length)
  return ⟨order, pageSize, lastPage, (Bytes.chunks pageSize data).map List.toArray⟩

variable (data : Bytes) (file : HashFile)

/-- The page with a number, cut out of the data. -/
def page (number : Nat) : Ranged Fault Page := do
  if file.lastPage < number then throw (.beyondLastPage number file.lastPage)
  let start ← product number file.pageSize
  let stop ← sum start file.pageSize
  let bytes ← between data start stop
  return bytes.toArray

def payload (number : Nat) (page : Page) (isLast : Bool) : Ranged Fault Bytes :=
  if isLast then do
    let used ← short file page 22
    let stop ← sum pageHeaderSize used
    if file.pageSize < stop then throw (.overflowLength number)
    between page.toList pageHeaderSize stop
  else between page.toList pageHeaderSize page.size

/-- The contents of the pages of a chain from a page on, in order. `hops` is how many pages were
followed, in a word of 32 bits. -/
def followChain (first hops number : Nat) (read : List Bytes) : Ranged Fault (List Bytes) :=
  if number = 0 then return read.reverse
  else do
    let _ ← Ranged.word 32 (hops + 1)
    if loops : file.lastPage < hops + 1 then throw (.chainLoops first)
    else
      let page ← page data file number
      let type ← byte page.toList 25
      if type.toNat ≠ overflowPageType then throw (.notOverflow number type.toNat)
      let next ← word file page 16
      let content ← payload file number page (next == 0)
      followChain first (hops + 1) next (content :: read)
termination_by file.lastPage - hops

/-- The value of a given length in the chain that begins at a page. -/
def chainValue (first length : Nat) : Ranged Fault Bytes := do
  let content := (← followChain data file first 0 first []).flatten
  if content.length < length then throw (.chainTooShort first content.length length)
  return content.take length

/-- The value listed in a slot of a hash page, when its place is listed there. -/
def slotValue? (number : Nat) (page : Page) (slot : Nat) : Ranged Fault (Option Bytes) := do
  let width ← product slot 2
  let place ← sum pageHeaderSize width
  let item ← short file page place
  if file.pageSize ≤ item then throw (.itemOutOfRange number item)
  let type ← byte page.toList item
  if type.toNat ≠ placeItemType then return none
  let stop ← sum item placeSize
  if file.pageSize < stop then throw (.entryTruncated number)
  let firstPlace ← sum item 4
  let first ← word file page firstPlace
  let lengthPlace ← sum item 8
  let length ← word file page lengthPlace
  return some (← chainValue data file first length)

/-- The values of one page, in the order of their slots. -/
def pageValues (number : Nat) : Ranged Fault (List Bytes) := do
  let page ← page data file number
  let type ← byte page.toList 25
  if !listsItems type.toNat then return []
  let count ← short file page 20
  if count % 2 ≠ 0 then throw (.oddEntryCount number count)
  let width ← product count 2
  let stop ← sum pageHeaderSize width
  if file.pageSize < stop then throw (.indexOverruns number)
  let values ← (List.range (count / 2)).mapM fun pair =>
    slotValue? data file number page (2 * pair + 1)
  return values.filterMap id

def values : Ranged Fault (List Bytes) := do
  let pages ← (List.range file.lastPage).mapM fun index => pageValues data file (index + 1)
  return pages.flatten

def readValues : Ranged Fault (List Bytes) := do
  values data (← parse data)

variable {data file}

private theorem slice_toList (page : Page) (offset length : Nat) :
    slice page.toList offset length = page.slice offset length := by
  rw [← slice_toArray, Array.toArray_toList]

section Fields

variable {page : Page} (size : page.size = file.pageSize) {offset : Nat}
include size

theorem byte_page (inside : offset < file.pageSize) :
    byte page.toList offset = some (page.getD offset 0) := by
  have inside' : offset < page.size := by omega
  rw [byte, Array.getElem?_toList, Array.getElem?_eq_getElem inside', Array.getD_eq_getD_getElem?,
    Array.getElem?_eq_getElem inside', Option.getD_some]

variable (stored : file.StoredIn data)
include stored

/-- A number is read where it lies on its page. -/
private theorem number_page {width : Nat} (inside : offset + width ≤ file.pageSize) :
    number file.order width page.toList offset =
      some ((page.slice offset width).natIn file.order) := by
  have largest := stored.pageSize_le
  have inside' : offset + width ≤ page.toList.length := by
    rw [Array.length_toList]
    omega
  rw [number_of_le _ inside' (by omega), slice_toList]

theorem short_page (inside : offset + 2 ≤ file.pageSize) :
    InRange.short file page offset = some (file.short page offset) :=
  number_page size stored inside

theorem word_page (inside : offset + 4 ≤ file.pageSize) :
    InRange.word file page offset = some (file.word page offset) :=
  number_page size stored inside

end Fields

variable (file) in
theorem short_lt (page : Page) (offset : Nat) : file.short page offset < 65536 := by
  have digits := Bytes.natIn_lt file.order (page.slice offset 2)
  have few : (page.slice offset 2).length ≤ 2 := by
    rw [Page.slice, Array.length_toList, Array.size_extract]
    omega
  exact Nat.lt_of_lt_of_le digits (Nat.pow_le_pow_right (by decide) few)

section Steps

variable (stored : file.StoredIn data) (few : file.lastPage < 0xffffffff)
include stored few

theorem reaches_page (number : Nat) :
    Reaches (InRange.page data file number) (file.page number) := by
  unfold InRange.page HashFile.page
  dsimp only
  refine Reaches.guard fun beyond => ?_
  have inside : number ≤ file.lastPage := Nat.not_lt.mp beyond
  have within := stored.page_inside inside
  have bound : number * file.pageSize + file.pageSize ≤ 0xffffffff * 65536 := by
    rw [← Nat.succ_mul]
    exact Nat.mul_le_mul (by omega) stored.pageSize_le
  refine Reaches.read (word_of_lt (by omega)) (Reaches.read (word_of_lt (by omega)) ?_)
  refine Reaches.read (between_of_le (Nat.le_add_right ..) within) ?_
  rw [Nat.add_sub_cancel_left, ← HashFile.pageAt, stored.pageAt inside]
  exact reaches_pure _

omit few in
theorem reaches_payload (number : Nat) {page : Page} (size : page.size = file.pageSize)
    (isLast : Bool) :
    Reaches (InRange.payload file number page isLast) (file.payload number page isLast) := by
  have smallest := stored.minPageSize_le
  unfold InRange.payload HashFile.payload
  refine Reaches.ite (fun _ => ?_) fun _ => ?_
  · have bound := short_lt file page 22
    refine Reaches.read (short_page size stored (by omega)) ?_
    refine Reaches.read (word_of_lt (by simp only [pageHeaderSize]; omega)) ?_
    refine Reaches.guard fun overruns => ?_
    have inside : pageHeaderSize + file.short page 22 ≤ page.toList.length := by
      rw [Array.length_toList]
      omega
    rw [← slice_toList]
    refine reaches_read ((between_of_le (Nat.le_add_right ..) inside).trans ?_)
    rw [Nat.add_sub_cancel_left]
  · have header : pageHeaderSize ≤ page.size := by
      simp only [pageHeaderSize]
      omega
    rw [← Array.length_toList] at header ⊢
    refine reaches_read ((between_of_le header (Nat.le_refl _)).trans ?_)
    rw [Bytes.slice_rest]

theorem reaches_followChain (first hops number : Nat) (read : List Bytes)
    (below : hops ≤ file.lastPage) :
    Reaches (InRange.followChain data file first hops number read)
      (file.followChain first (file.lastPage - hops) number read) := by
  -- The plain reader counts down the pages that may follow, this one counts those that did.
  induction left : file.lastPage - hops generalizing hops number read with
  | zero =>
    rw [InRange.followChain]
    cases number with
    | zero => exact reaches_pure _
    | succ number =>
      rw [if_neg (Nat.succ_ne_zero number), dif_pos (by omega)]
      exact Reaches.read (word_of_lt (by omega)) (reaches_throw _)
  | succ left ih =>
    rw [InRange.followChain]
    cases number with
    | zero => exact reaches_pure _
    | succ number =>
      rw [if_neg (Nat.succ_ne_zero number), dif_neg (by omega)]
      refine Reaches.read (word_of_lt (by omega)) ?_
      refine (reaches_page stored few (number + 1)).bind fun page found => ?_
      have size := stored.size_of_page found
      have smallest := stored.minPageSize_le
      refine Reaches.read (byte_page size (by omega)) ?_
      refine Reaches.guard fun overflow => ?_
      refine Reaches.read (word_page size stored (by omega)) ?_
      refine (reaches_payload stored (number + 1) size _).bind fun content _ => ?_
      exact ih (hops + 1) _ _ (by omega) (by omega)

theorem reaches_chainValue (first length : Nat) :
    Reaches (InRange.chainValue data file first length) (file.chainValue first length) := by
  refine (reaches_followChain stored few first 0 first [] (Nat.zero_le _)).bind fun pages _ => ?_
  exact Reaches.guard fun enough => reaches_pure _

theorem reaches_slotValue? (number : Nat) {page : Page} (size : page.size = file.pageSize)
    (slot : Nat) (listed : pageHeaderSize + slot * 2 + 2 ≤ file.pageSize) :
    Reaches (InRange.slotValue? data file number page slot)
      (file.slotValue? number page slot) := by
  have largest := stored.pageSize_le
  unfold InRange.slotValue? HashFile.slotValue?
  dsimp only
  refine Reaches.read (word_of_lt (by omega)) ?_
  refine Reaches.read (word_of_lt (by omega)) ?_
  refine Reaches.read (short_page size stored listed) ?_
  refine Reaches.guard fun outside => ?_
  have inside := Nat.not_le.mp outside
  refine Reaches.read (byte_page size inside) ?_
  refine Reaches.ite (fun _ => reaches_pure _) fun _ => ?_
  refine Reaches.read (word_of_lt (by simp only [placeSize]; omega)) ?_
  refine Reaches.guard fun truncated => ?_
  have whole := Nat.not_lt.mp truncated
  simp only [placeSize] at whole
  refine Reaches.read (word_of_lt (by omega)) ?_
  refine Reaches.read (word_page size stored (by omega)) ?_
  refine Reaches.read (word_of_lt (by omega)) ?_
  refine Reaches.read (word_page size stored (by omega)) ?_
  exact (reaches_chainValue stored few _ _).bind fun value _ => reaches_pure _

theorem reaches_pageValues (number : Nat) :
    Reaches (InRange.pageValues data file number) (file.pageValues number) := by
  have smallest := stored.minPageSize_le
  refine (reaches_page stored few number).bind fun page found => ?_
  have size := stored.size_of_page found
  refine Reaches.read (byte_page size (by omega)) ?_
  refine Reaches.ite (fun _ => reaches_pure _) fun _ => ?_
  have bound := short_lt file page 20
  refine Reaches.read (short_page size stored (by omega)) ?_
  refine Reaches.guard fun even => ?_
  refine Reaches.read (word_of_lt (by omega)) ?_
  refine Reaches.read (word_of_lt (by simp only [pageHeaderSize]; omega)) ?_
  refine Reaches.guard fun overruns => ?_
  refine Reaches.bind (Reaches.mapM fun pair member => ?_) fun values _ => reaches_pure _
  have listed := List.mem_range.mp member
  exact reaches_slotValue? stored few number size _ (by omega)

theorem reaches_values : Reaches (InRange.values data file) file.values := by
  refine Reaches.bind (Reaches.mapM fun index _ => ?_) fun pages _ => reaches_pure _
  exact reaches_pageValues stored few (index + 1)

end Steps

section Parsing

theorem reaches_order (long : 512 ≤ data.length) :
    Reaches (InRange.order data)
      (match orderOf? data with
        | none => .error .notHashFile
        | some order => .ok order) := by
  have mark (order : ByteOrder) : number order 4 data 12 = some ((slice data 12 4).natIn order) :=
    number_of_le order (by omega) (by decide)
  unfold InRange.order orderOf?
  refine Reaches.read (mark .little) ?_
  by_cases little : (slice data 12 4).natIn .little = magic
  · rw [if_pos little, if_pos (show (slice data 12 4).natLE = magic from little)]
    exact reaches_pure _
  · rw [if_neg little, if_neg (show ¬ (slice data 12 4).natLE = magic from little)]
    refine Reaches.read (mark .big) ?_
    by_cases big : (slice data 12 4).natIn .big = magic
    · rw [if_pos big, if_pos (show (slice data 12 4).natBE = magic from big)]
      exact reaches_pure _
    · rw [if_neg big, if_neg (show ¬ (slice data 12 4).natBE = magic from big)]
      exact reaches_throw _

/-- The declared number of the last page is one less than a word of 32 bits holds. -/
theorem reaches_parse
    (few : ∀ order, orderOf? data = some order → (slice data 32 4).natIn order < 0xffffffff) :
    Reaches (InRange.parse data) (HashFile.parse data) := by
  unfold InRange.parse HashFile.parse
  dsimp only
  refine Reaches.guard fun long => ?_
  simp only [minPageSize, Nat.not_lt] at long
  have ordered := reaches_order long
  cases found : orderOf? data with
  | none =>
    rw [found] at ordered
    exact ordered.fault
  | some order =>
    rw [found] at ordered
    refine ordered.onward ?_
    refine Reaches.read (byte_of_lt (by omega)) ?_
    refine Reaches.guard fun plain => ?_
    refine Reaches.read (byte_of_lt (by omega)) ?_
    refine Reaches.guard fun type => ?_
    refine Reaches.read (number_of_le order (by omega) (by decide)) ?_
    refine Reaches.guard fun sized => ?_
    refine Reaches.read (number_of_le order (by omega) (by decide)) ?_
    have last := few order found
    refine Reaches.read (word_of_lt (by omega)) ?_
    have pageSize : isPageSize ((slice data 20 4).natIn order) = true := by simpa using sized
    have bound : ((slice data 32 4).natIn order + 1) * (slice data 20 4).natIn order ≤
        0xffffffff * 65536 := Nat.mul_le_mul (by omega) (le_of_isPageSize pageSize).2
    rw [Nat.min_eq_left (by omega)]
    refine Reaches.ite (fun _ => ?_) fun _ => reaches_pure _
    exact Reaches.read (word_of_lt (by omega)) (reaches_throw _)

theorem reaches_readValues
    (few : ∀ order, orderOf? data = some order → (slice data 32 4).natIn order < 0xffffffff) :
    Reaches (InRange.readValues data) (HashFile.readValues data) := by
  refine (reaches_parse few).bind fun file parsed => ?_
  have stored := storedIn_of_parse parsed
  exact reaches_values stored (stored.lastPage ▸ few file.order stored.order)

end Parsing

end InRange

end ImageAudit.Rpm.HashFile
