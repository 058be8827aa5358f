import ImageAudit.Image.Manifest
import ImageAudit.Json.Reader
import ImageAudit.Json.Records
import ImageAudit.Layer.Blob

/-! # Images in a directory

A layout directory holds an image: a mark, the index, and a directory of blobs in which each lies
under its algorithm and the value of its digest. The first manifest of the index is the image.
-/

namespace ImageAudit

/-- Why a directory holds no image. -/
inductive LayoutFault where
  | missing (name root : String)
  | unreadable (document path cause : String)
  | malformed (document : String)
  | noManifests
  deriving DecidableEq, Repr

def LayoutFault.message : LayoutFault → String
  | missing name root => "Not a valid OCI layout: missing " ++ name ++ " in " ++ root
  | unreadable document path cause =>
    "Failed to read " ++ document ++ " at " ++ path ++ ": " ++ cause
  | malformed document => "Failed to parse " ++ document ++ ": not of the expected form"
  | noManifests => "No manifests in index.json"

structure ImageLayout where
  root : String
  config : ImageConfig
  layers : List LayerDescriptor
  /-- Whether a layer must match its digest to be opened. -/
  verifiesDigests : Bool

namespace ImageLayout

def requiredNames : List String := ["oci-layout", "index.json", "blobs"]

def blobPath (root digest : String) : String :=
  let (algorithm, value) := Digest.split digest
  Path.below (Path.below (Path.below root "blobs") algorithm) value

def readText (files : FileTree) (document path : String) : Except LayoutFault Bytes :=
  match files.content? path with
  | some content =>
    if Utf8.isValid content then .ok content
    else .error (.unreadable document path "stream did not contain valid UTF-8")
  | none => .error (.unreadable document path "no file can be opened there")

def readDocument (files : FileTree) (document path : String) (decode? : Json.Value → Option α) :
    Except LayoutFault α := do
  match (Json.read? (← readText files document path)).bind decode? with
  | some content => return content
  | none => throw (.malformed document)

def read (files : FileTree) (root : String) (verifiesDigests : Bool) :
    Except LayoutFault ImageLayout := do
  for name in requiredNames do
    if !files.contains (Path.below root name) then throw (.missing name root)
  let index ← readDocument files "index.json" (Path.below root "index.json") ImageIndex.ofJson?
  let some first := index.manifests.head? | throw .noManifests
  let manifest ←
    readDocument files "manifest" (blobPath root first.digest) ImageManifest.ofJson?
  let config ←
    readDocument files "config" (blobPath root manifest.config.digest) ImageConfig.ofJson?
  return ⟨root, config, manifest.layerDescriptors, verifiesDigests⟩

def openImage (files : FileTree) (root : String) (verifiesDigests : Bool) :
    Except Failure ImageLayout :=
  (read files root verifiesDigests).mapError fun fault => .imageAccess fault.message

/-- The digests of the uncompressed layers, lowest first. -/
def diffIds (image : ImageLayout) : List String :=
  image.layers.map fun layer => image.config.diffId layer.index

/-- Opens a layer as an archive, among the files as they are then. -/
def openLayer (image : ImageLayout) (files : FileTree) (layer : LayerDescriptor) :
    Except Failure ByteStream :=
  let path := blobPath image.root layer.digest
  (Blob.openLayer path (files.find? path) layer.mediaType
    (if image.verifiesDigests then some layer.digest else none)).mapError
    fun fault => .imageAccess fault.message

end ImageLayout

end ImageAudit
