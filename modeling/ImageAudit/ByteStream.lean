import ImageAudit.Bytes

/-! # Streams of bytes

What a reader gets from an opened file: bytes, and then either the end or a read error.
-/

namespace ImageAudit

structure ByteStream where
  content : Bytes
  /-- Whether reading past the content ends the stream; if not, it fails. -/
  isWhole : Bool
  deriving DecidableEq, Repr

namespace ByteStream

/-- A stream of all the bytes of a file. -/
def ofBytes (content : Bytes) : ByteStream := ⟨content, true⟩

/-- Everything up to the end, if the end can be reached. -/
def readToEnd? (stream : ByteStream) : Option Bytes :=
  if stream.isWhole then some stream.content else none

end ByteStream

end ImageAudit
