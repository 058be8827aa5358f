import ImageAudit.FileTree
import ImageAudit.Gzip
import ImageAudit.Sha256
import ImageAudit.Text
import ImageAudit.Text.Hex

/-! # Layer blobs

A layer is stored as an archive, plain or in gzip. How it is stored shows in its first bytes,
whatever its media type says; only the one compression that is not supported is refused by its media
type too. A blob that is to match a digest is checked before it is opened.
-/

namespace ImageAudit

inductive BlobFault where
  | unsupportedMediaType (mediaType path : String)
  | notFound (path : String)
  | digestAlgorithm (algorithm path : String)
  | notHashed (path cause : String)
  | digestMismatch (path expected actual : String)
  | unreadable (path cause : String)
  | zstdContent (path : String)
  deriving DecidableEq, Repr

def BlobFault.message : BlobFault → String
  | unsupportedMediaType mediaType path =>
    "Unsupported layer media type " ++ mediaType ++ " for " ++ path
  | notFound path => "Layer file not found: " ++ path
  | digestAlgorithm algorithm path =>
    "Unsupported digest algorithm " ++ algorithm ++ " for " ++ path
  | notHashed path cause => "Failed to read file for hashing " ++ path ++ ": " ++ cause
  | digestMismatch path expected actual =>
    "Layer digest mismatch for " ++ path ++ ": expected " ++ expected ++ ", got sha256:" ++ actual
  | unreadable path cause => "Failed to read layer file " ++ path ++ ": " ++ cause
  | zstdContent path => "zstd-compressed layers are not supported: " ++ path

namespace Digest

/-- The algorithm of a digest and its value: the parts before and after the first colon. A digest
without a colon is a value of `sha256`. -/
def split (digest : String) : String × String :=
  (Text.splitFirst? ':' digest).getD ("sha256", digest)

/-- The value of the only algorithm that is supported. -/
def sha256 (content : Bytes) : String := Hex.encode (Sha256.digest content)

end Digest

namespace Blob

/-- The first bytes of a blob in the compression that is not supported. -/
def zstdMagic : Bytes := [0x28, 0xb5, 0x2f, 0xfd]

/-- The digest of the file at a path. -/
def hash (path : String) : Option FileNode → Except BlobFault String
  | some (.file content) => .ok (Digest.sha256 content)
  | some .directory => .error (.notHashed path PathFault.isDirectory.message)
  | none => .error (.notHashed path PathFault.missing.message)

/-- Fails unless what lies at the path matches the digest. -/
def verify (path : String) (node : FileNode) (expected : String) : Except BlobFault Unit := do
  let (algorithm, value) := Digest.split expected
  if algorithm ≠ "sha256" then throw (.digestAlgorithm algorithm path)
  let actual ← hash path (some node)
  if !Text.eqIgnoringCase actual value then throw (.digestMismatch path expected actual)

/-- The archive that stored bytes hold. -/
def decode (path : String) (content : Bytes) : Except BlobFault ByteStream :=
  if zstdMagic.isPrefixOf content then .error (.zstdContent path)
  else if Gzip.magic.isPrefixOf content then .ok (Gzip.decompress content)
  else .ok (ByteStream.ofBytes content)

/-- Opens the blob at a path as an archive, once it matches the digest that it is to match. -/
def openLayer (path : String) (node : Option FileNode) (mediaType : String)
    (expected : Option String) : Except BlobFault ByteStream :=
  if Text.contains mediaType "zstd" then .error (.unsupportedMediaType mediaType path)
  else
    match node with
    | none => .error (.notFound path)
    | some node => do
      if let some expected := expected then verify path node expected
      match node with
      | .directory => throw (.unreadable path PathFault.isDirectory.message)
      | .file content => decode path content

end Blob

end ImageAudit
