import ImageAudit.Json.Decode
import ImageAudit.Layer.Descriptor

/-! # Indexes and manifests

An image is described by three documents: the index lists manifests, a manifest names the config and
the layers, each by its digest. A blob is described by its media type, digest and size. Of the
fields that are not used only the form is checked.
-/

namespace ImageAudit

open Json

/-- A blob as a document describes it. -/
structure BlobDescriptor where
  mediaType : String
  digest : String
  size : Int64
  deriving DecidableEq

def isPlatform (value : Value) : Option Unit := do
  match ← value.fields? ["architecture", "os", "os_version", "os_features", "variant", "features"]
  with
  | [architecture, os, osVersion, osFeatures, variant, features] =>
    discard (architecture.required? Value.asString?)
    discard (os.required? Value.asString?)
    discard (osVersion.optional? Value.asString?)
    discard (osFeatures.optional? (Value.asList? Value.asString?))
    discard (variant.optional? Value.asString?)
    discard (features.optional? (Value.asList? Value.asString?))
  | _ => none

namespace BlobDescriptor

def ofJson? (value : Value) : Option BlobDescriptor := do
  match ← value.fields? ["mediaType", "digest", "size", "urls", "annotations", "platform",
    "artifactType", "data"] with
  | [mediaType, digest, size, urls, annotations, platform, artifactType, data] =>
    discard (urls.optional? (Value.asList? Value.asString?))
    discard (annotations.optional? Value.asStringMap?)
    discard (platform.optional? isPlatform)
    discard (artifactType.optional? Value.asString?)
    discard (data.optional? Value.asString?)
    return {
      mediaType := ← mediaType.required? Value.asString?
      digest := ← digest.required? Value.asString?
      size := ← size.required? Value.asInt64? }
  | _ => none

end BlobDescriptor

structure ImageIndex where
  manifests : List BlobDescriptor
  deriving DecidableEq

def ImageIndex.ofJson? (value : Value) : Option ImageIndex := do
  match ← value.fields?
    ["schemaVersion", "mediaType", "artifactType", "manifests", "subject", "annotations"] with
  | [schemaVersion, mediaType, artifactType, manifests, subject, annotations] =>
    discard (schemaVersion.required? Value.asUInt32?)
    discard (mediaType.optional? Value.asString?)
    discard (artifactType.optional? Value.asString?)
    discard (subject.optional? BlobDescriptor.ofJson?)
    discard (annotations.optional? Value.asStringMap?)
    return ⟨← manifests.required? (Value.asList? BlobDescriptor.ofJson?)⟩
  | _ => none

/-- The config and the layers that a manifest names, lowest layer first. -/
structure ImageManifest where
  config : BlobDescriptor
  layers : List BlobDescriptor
  deriving DecidableEq

namespace ImageManifest

def ofJson? (value : Value) : Option ImageManifest := do
  match ← value.fields? ["schemaVersion", "mediaType", "artifactType", "config", "layers",
    "subject", "annotations"] with
  | [schemaVersion, mediaType, artifactType, config, layers, subject, annotations] =>
    discard (schemaVersion.required? Value.asUInt32?)
    discard (mediaType.optional? Value.asString?)
    discard (artifactType.optional? Value.asString?)
    discard (subject.optional? BlobDescriptor.ofJson?)
    discard (annotations.optional? Value.asStringMap?)
    return {
      config := ← config.required? BlobDescriptor.ofJson?
      layers := ← layers.required? (Value.asList? BlobDescriptor.ofJson?) }
  | _ => none

/-- The layers with their positions. -/
def layerDescriptors (manifest : ImageManifest) : List LayerDescriptor :=
  manifest.layers.zipIdx.map fun (layer, index) =>
    ⟨index, layer.digest, layer.mediaType, layer.size⟩

end ImageManifest

end ImageAudit
