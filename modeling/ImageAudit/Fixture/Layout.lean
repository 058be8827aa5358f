import ImageAudit.Fixture.Layer
import ImageAudit.Json.Writer
import ImageAudit.Layer.Blob

/-! # Image fixtures

An image described by its layers, with the layout directory that holds it. Layers are stored as they
are or in gzip, by any packer.
-/

namespace ImageAudit.Fixture

open Json

/-- A blob with its digest and media type. -/
structure StoredBlob where
  mediaType : String
  content : Bytes
  digest : String

namespace StoredBlob

/-- The digest of some bytes, with its algorithm. -/
def digestOf (content : Bytes) : String := "sha256:" ++ Digest.sha256 content

def ofContent (mediaType : String) (content : Bytes) : StoredBlob :=
  ⟨mediaType, content, digestOf content⟩

def ofDocument (mediaType : String) (document : Value) : StoredBlob :=
  ofContent mediaType (Bytes.ofText (Json.write document))

def descriptor (blob : StoredBlob) : Value :=
  .record [("digest", .str blob.digest), ("mediaType", .str blob.mediaType),
    ("size", .nat blob.content.length)]

def addTo (root : String) (files : FileTree) (blob : StoredBlob) : FileTree :=
  files.addFile (root ++ "/blobs/sha256/" ++ (Digest.split blob.digest).2) blob.content

end StoredBlob

/-- An image described by the archives of its layers. -/
structure ImageFixture where
  archives : List Bytes
  usesGzip : Bool

namespace ImageFixture

def layerBlob (pack : Bytes → Bytes) (usesGzip : Bool) (archive : Bytes) : StoredBlob :=
  if usesGzip then .ofContent "application/vnd.oci.image.layer.v1.tar+gzip" (pack archive)
  else .ofContent "application/vnd.oci.image.layer.v1.tar" archive

def layerBlobs (image : ImageFixture) (pack : Bytes → Bytes) : List StoredBlob :=
  image.archives.map (layerBlob pack image.usesGzip)

def config (image : ImageFixture) : StoredBlob :=
  .ofDocument "application/vnd.oci.image.config.v1+json" <| .record [
    ("architecture", .str "amd64"),
    ("config", .record [("Labels", .record [("vendor", .str standardVendor)])]),
    ("os", .str "linux"),
    ("rootfs", .record [
      ("diff_ids", .list (fun archive => .str (StoredBlob.digestOf archive)) image.archives),
      ("type", .str "layers")])]

def manifestType : String := "application/vnd.oci.image.manifest.v1+json"

def manifest (config : StoredBlob) (layers : List StoredBlob) : StoredBlob :=
  .ofDocument manifestType <| .record [
    ("config", config.descriptor),
    ("layers", .list StoredBlob.descriptor layers),
    ("mediaType", .str manifestType),
    ("schemaVersion", .nat 2)]

def index (manifest : StoredBlob) : String :=
  Json.write <| .record [
    ("manifests", .array [manifest.descriptor]), ("schemaVersion", .nat 2)]

def layoutMark : String := Json.write (.record [("imageLayoutVersion", .str "1.0.0")])

/-- A layout directory added to some files. -/
structure Written where
  files : FileTree
  /-- The text of the index. -/
  index : String
  /-- The digests of the layers, lowest first. -/
  digests : List String

/-- The layout directory of an image, added to some files. Unless another packer is given, gzip files
are made of stored blocks. -/
def write (image : ImageFixture) (root : String) (files : FileTree)
    (pack : Bytes → Bytes := Gzip.Writer.compress) : Written :=
  let layers := image.layerBlobs pack
  let config := image.config
  let manifest := manifest config layers
  let index := index manifest
  let files := (layers ++ [config, manifest]).foldl (StoredBlob.addTo root) files
  let files := files.addFile (root ++ "/index.json") (Bytes.ofText index)
  ⟨files.addFile (root ++ "/oci-layout") (Bytes.ofText layoutMark), index,
    layers.map (·.digest)⟩

end ImageFixture

end ImageAudit.Fixture
