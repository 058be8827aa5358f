import ImageAudit.Rpm.Page
import ImageAudit.Rpm.TableFile.Fault

/-! # The write-ahead log

Changes to a table file may still stand in a log beside it: new contents of pages, in the order in
which they were written. Each is tied to the log by two numbers drawn when the log was begun, and to
all before it by a running checksum, so what a broken write leaves behind is told apart. Changes
take effect together, when one of them is marked as the last of its transaction; the mark is the
number of pages that the file has from then on.
-/

namespace ImageAudit.Rpm.TableFile

structure LogChecksum where
  first : UInt32
  second : UInt32
  deriving DecidableEq, Repr

namespace LogChecksum

def zero : LogChecksum := ⟨0, 0⟩

/-- Two more words, given in the byte order of the log. -/
def add (sum : LogChecksum) (order : ByteOrder) (a b : Bytes) : LogChecksum :=
  let first := sum.first + UInt32.ofNat (a.natIn order) + sum.second
  ⟨first, sum.second + UInt32.ofNat (b.natIn order) + first⟩

/-- All the pairs of words of some bytes. -/
def addAll (order : ByteOrder) : LogChecksum → Bytes → LogChecksum
  | sum, a :: b :: c :: d :: e :: f :: g :: h :: rest =>
    addAll order (sum.add order [a, b, c, d] [e, f, g, h]) rest
  | sum, _ => sum

/-- The checksum as it is stored. -/
def bytes (sum : LogChecksum) : Bytes :=
  Bytes.ofNatBE 4 sum.first.toNat ++ Bytes.ofNatBE 4 sum.second.toNat

end LogChecksum

/-- The new content of a page. -/
structure LogEntry where
  page : Nat
  /-- The number of pages from here on, if the entry ends a transaction; zero if not. -/
  pageCount : Nat
  content : Bytes
  deriving DecidableEq, Repr

/-- What is common to the entries of a log. -/
structure Log where
  /-- The byte order of the words that are summed. -/
  order : ByteOrder
  pageSize : Nat
  /-- The two numbers that mark the entries of this log. -/
  salt : Bytes
  /-- The checksum of the log's header. -/
  sum : LogChecksum

namespace Log

/-- The bytes in front of the entries. -/
def headerSize : Nat := 32

/-- The bytes in front of the content of an entry. -/
def entryHeaderSize : Nat := 24

/-- Marks a log, but for its lowest bit, which tells the byte order. -/
def magic : Nat := 0x377f0682

/-- The only version. -/
def version : Nat := 3007000

/-- Whether pages can have this size: a power of two from 512 to 65536. -/
def isPageSize (size : Nat) : Bool :=
  512 ≤ size && size ≤ 65536 && size &&& (size - 1) == 0

def word (data : Bytes) (offset : Nat) : Nat := Bytes.natBE (data.slice offset 4)

/-- The header of a log; none where there is nothing that could be taken over. -/
def parse? (data : Bytes) : Except Fault (Option Log) :=
  let header := data.take headerSize
  let mark := word header 0
  let order : ByteOrder := if mark % 2 = 1 then .big else .little
  let sum := LogChecksum.zero.addAll order (header.take 24)
  if data.length ≤ headerSize ∨ mark / 2 ≠ magic / 2 ∨ !isPageSize (word header 8) ∨
      header.drop 24 ≠ sum.bytes then .ok none
  else if word header 4 ≠ version then .error (.unsupportedLog (word header 4))
  else .ok (some ⟨order, word header 8, Bytes.slice header 16 8, sum⟩)

/-- The entries up to the first that does not belong to the log. -/
def validEntries (log : Log) : LogChecksum → List Bytes → List LogEntry
  | _, [] => []
  | sum, stored :: rest =>
    let content := stored.drop entryHeaderSize
    let sum := (sum.addAll log.order (stored.take 8)).addAll log.order content
    if content.length = log.pageSize ∧ stored.slice 8 8 = log.salt ∧ word stored 0 ≠ 0 ∧
        stored.slice 16 8 = sum.bytes then
      ⟨word stored 0, word stored 4, content⟩ :: log.validEntries sum rest
    else []

/-- The entries up to the last that ends a transaction. -/
def committed (entries : List LogEntry) : List LogEntry :=
  (entries.reverse.dropWhile fun entry => entry.pageCount = 0).reverse

/-- The entries of a log that take effect. -/
def entries (data : Bytes) : Except Fault (List LogEntry) := do
  match ← parse? data with
  | none => return []
  | some log =>
    let stored := Bytes.chunks (entryHeaderSize + log.pageSize) (data.drop headerSize)
    return committed (log.validEntries log.sum stored.toList)

end Log

end ImageAudit.Rpm.TableFile
