import ImageAudit.Gzip.Checksum

/-! # Writing gzip files

The writer makes one member whose content is stored in blocks as it is.
-/

namespace ImageAudit.Gzip.Writer

/-- The most bytes that a stored block holds. -/
def maxBlockSize : Nat := 65535

def block (isLast : Bool) (content : Bytes) : Bytes :=
  (if isLast then 1 else 0) :: Bytes.ofNatLE 2 content.length ++
    Bytes.ofNatLE 2 (maxBlockSize - content.length) ++ content

/-- Stored blocks, of which the last is marked. -/
def blocks : List Bytes → Bytes
  | [] => block true []
  | [content] => block true content
  | content :: rest => block false content ++ blocks rest

/-- The header of a member that tells nothing about it. -/
def header : Bytes := [0x1f, 0x8b, 8, 0, 0, 0, 0, 0, 0, 0xff]

def compress (content : Bytes) : Bytes :=
  header ++ blocks (Bytes.chunks maxBlockSize content).toList ++
    Bytes.ofNatLE 4 (checksum content).toNat ++ Bytes.ofNatLE 4 content.length

end ImageAudit.Gzip.Writer
