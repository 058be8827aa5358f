import ImageAudit.ByteStream
import ImageAudit.Gzip.Checksum
import ImageAudit.Gzip.Inflate

/-! # Gzip files

A gzip file is a sequence of members, each with a header, a deflated stream, and the checksum and
length of its content. The contents of all members make up the stream. Where a member is cut, its
content up to there is read before the error shows; so it is with a wrong checksum or length. A
deflated stream that is broken inside is found out a window ahead of the reader, so it gives only
the whole windows before the break.
-/

namespace ImageAudit.Gzip

/-- The first two bytes of a member. -/
def magic : Bytes := [0x1f, 0x8b]

/-- The most bytes that a name, a comment or an extra field may have. -/
def maxFieldSize : Nat := 65535

/-- The rest after a text that a zero byte ends. -/
def skipText? (data : Bytes) : Option Bytes :=
  let text := data.untilZero
  match data.drop text.length with
  | [] => none
  | _ :: rest => if maxFieldSize < text.length then none else some rest

/-- The rest after an extra field, which begins with its length. -/
def skipExtra? (data : Bytes) : Option Bytes := do
  let length := (← data.slice? 0 2).natLE
  if data.length < 2 + length then none else some (data.drop (2 + length))

/-- The rest after a part that is there when its flag is set. -/
def skipIf (isThere : Bool) (skip? : Bytes → Option Bytes) (data : Bytes) : Option Bytes :=
  if isThere then skip? data else some data

/-- The rest after the checksum of the header that begins `header`. -/
def skipChecksum? (header : Bytes) (data : Bytes) : Option Bytes := do
  let stored := (← data.slice? 0 2).natLE
  let read := header.take (header.length - data.length)
  if stored = (checksum read).toNat % 65536 then some (data.drop 2) else none

def skipHeader? (data : Bytes) : Option Bytes := do
  let fixed ← data.slice? 0 10
  let flags := (fixed.getD 3 0).toNat
  if fixed.take 2 ≠ magic ∨ fixed.getD 2 0 ≠ 8 ∨ 32 ≤ flags then none
  let rest ← skipIf (flags / 4 % 2 = 1) skipExtra? (data.drop 10)
  let rest ← skipIf (flags / 8 % 2 = 1) skipText? rest
  let rest ← skipIf (flags / 16 % 2 = 1) skipText? rest
  skipIf (flags / 2 % 2 = 1) (skipChecksum? data) rest

/-- How much of a stream is inflated ahead of its reader. -/
def windowSize : Nat := 32768

/-- How much of a file is at hand when the first bytes were looked at. -/
def firstPieceSize : Nat := 8192

/-- How much of a file arrives at once after that. -/
def pieceSize : Nat := 32768

/-- Where the pieces end in which a file of some size arrives. -/
def pieceEnds (size : Nat) : List Nat :=
  ((List.range (size / pieceSize + 1)).map fun number =>
    firstPieceSize + number * pieceSize).filter (· < size)

/-- How much content the front of a deflated stream gives that is sound so far. -/
def soundLength (body : Bytes) : Nat :=
  match inflate body with
  | (content, .error .cut) => content.length
  | _ => 0

/-- How much of the content in front of a break is read before the break shows: the whole windows,
and all that the pieces before the broken one give. `ends` tells where the pieces of the stream end,
and the last byte before the break cannot complete a window. -/
def lengthBeforeBreak (ends : List Nat) (body content : Bytes) : Nat :=
  (ends.map fun size => soundLength (body.take size)).foldl max
    ((content.length - 1) / windowSize * windowSize)

/-- Whether the trailer of a member agrees with its content. -/
def trailerAgrees (content trailer : Bytes) : Bool :=
  (trailer.slice 0 4).natLE == (checksum content).toNat &&
    (trailer.slice 4 4).natLE == content.length % 0x100000000

/-- The content of the member that begins the last part of a file of some size, and the rest after
it, if the member is whole. -/
def readMember (fileSize : Nat) (data : Bytes) : Bytes × Option Bytes :=
  match skipHeader? data with
  | none => ([], none)
  | some body =>
    match inflate body with
    | (content, .error .broken) =>
      let ends := (pieceEnds fileSize).map (· - (fileSize - body.length))
      (content.take (lengthBeforeBreak ends body content), none)
    | (content, .error .cut) => (content, none)
    | (content, .ok rest) =>
      match rest.slice? 0 8 with
      | none => (content, none)
      | some trailer =>
        if trailerAgrees content trailer then (content, some (rest.drop 8)) else (content, none)

/-- The contents of all members, after those read so far, last first. The fuel bounds their
number. -/
def readMembers (fileSize : Nat) : Nat → List Bytes → Bytes → ByteStream
  | 0, read, _ => ⟨read.reverse.flatten, false⟩
  | fuel + 1, read, data =>
    match readMember fileSize data with
    | (content, none) => ⟨(content :: read).reverse.flatten, false⟩
    | (content, some []) => ⟨(content :: read).reverse.flatten, true⟩
    | (content, some rest) => readMembers fileSize fuel (content :: read) rest

def decompress (data : Bytes) : ByteStream := readMembers data.length (data.length + 1) [] data

end ImageAudit.Gzip
