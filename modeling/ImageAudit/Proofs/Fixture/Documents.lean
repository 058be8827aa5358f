import ImageAudit.Fixture.Layout
import ImageAudit.Image.Layout
import ImageAudit.Proofs.Json.RoundTrip

/-! # What the documents of a fixture say

The index, the manifest and the config of a fixture are read back with what the fixture has: the
index lists the manifest, the manifest names the config and the layers in their order, and the
config has the digests of the archives.
-/

namespace ImageAudit

open Json

section Fields

/-- A length is a size as long as it fits. -/
theorem Json.Value.asInt64?_nat {n : Nat} (fits : n < 0x8000000000000000) :
    (Value.nat n).asInt64? = some (Int64.ofInt n) := by
  have low : -0x8000000000000000 ≤ (n : Int) := by omega
  have high : (n : Int) < 0x8000000000000000 := by omega
  rw [nat, asInt64?, asIntBetween?, if_pos ⟨low, high⟩, Option.map_some]

/-- The items of a written list are read one by one. -/
theorem Json.Value.asList?_list {α β : Type} {write : α → Value} {item? : Value → Option β}
    {result : α → β} {items : List α}
    (each : ∀ item ∈ items, item? (write item) = some (result item)) :
    (Value.list write items).asList? item? = some (items.map result) := by
  rw [list, asList?]
  induction items with
  | nil => rfl
  | cons item items ih =>
    obtain ⟨first, later⟩ := List.forall_mem_cons.mp each
    rw [List.map_cons, List.mapM_cons, first, ih later]
    rfl

-- The values of the fields are variables here, so that nothing compares a size, which is a length,
-- with the bounds of its type by counting up to them.
variable {digest mediaType : String} {blob : BlobDescriptor} {blobs : List BlobDescriptor}

theorem BlobDescriptor.ofJson?_record {size : Value} {count : Int64}
    (sized : size.asInt64? = some count) :
    ofJson? (.record [("digest", .str digest), ("mediaType", .str mediaType), ("size", size)]) =
      some ⟨mediaType, digest, count⟩ := by
  simp [ofJson?, Value.record, Value.fields?, memberSlot?, Slot.required?, Slot.optional?,
    Value.asString?, Value.str, discard, Functor.mapConst, sized]

theorem ImageIndex.ofJson?_record {manifests : Value}
    (listed : manifests.asList? BlobDescriptor.ofJson? = some blobs) :
    ofJson? (.record [("manifests", manifests), ("schemaVersion", .nat 2)]) = some ⟨blobs⟩ := by
  simp [ofJson?, Value.record, Value.fields?, memberSlot?, Slot.required?, Slot.optional?,
    Value.nat, Value.asUInt32?, Value.asIntBetween?, discard, Functor.mapConst, listed]

theorem ImageManifest.ofJson?_record {config layers : Value}
    (named : BlobDescriptor.ofJson? config = some blob)
    (listed : layers.asList? BlobDescriptor.ofJson? = some blobs) :
    ofJson? (.record [("config", config), ("layers", layers), ("mediaType", .str mediaType),
      ("schemaVersion", .nat 2)]) = some ⟨blob, blobs⟩ := by
  simp [ofJson?, Value.record, Value.fields?, memberSlot?, Slot.required?, Slot.optional?,
    Value.nat, Value.asUInt32?, Value.asIntBetween?, Value.asString?, Value.str,
    Value.asNullable?, discard, Functor.mapConst, named, listed]

theorem ImageConfig.rootFileSystem_ofJson?_record {diffIds : Value} {digests : List String}
    {vendor : String} (listed : diffIds.asStrings? = some digests) :
    ∃ config, ofJson? (.record [
      ("architecture", .str "amd64"),
      ("config", .record [("Labels", .record [("vendor", .str vendor)])]),
      ("os", .str "linux"),
      ("rootfs", .record [("diff_ids", diffIds), ("type", .str "layers")])]) = some config ∧
      config.rootFileSystem.diffIds = digests := by
  refine ⟨⟨"amd64", "linux", none, ⟨some [("vendor", vendor)], none, none⟩,
    ⟨"layers", digests⟩⟩, ?_, rfl⟩
  simp [ofJson?, RootFileSystem.ofJson?, ContainerDefaults.ofJson?, Value.record, Value.fields?,
    memberSlot?, Slot.withDefault?, Value.str, Value.asString?, Value.asNullable?,
    Value.asStringMap?, listed]

end Fields

namespace Fixture

open Json.Value

namespace StoredBlob

/-- The blob as a document describes it. -/
def described (blob : StoredBlob) : BlobDescriptor :=
  ⟨blob.mediaType, blob.digest, Int64.ofInt blob.content.length⟩

@[simp] theorem described_digest (blob : StoredBlob) : blob.described.digest = blob.digest := rfl

variable {blob : StoredBlob} (fits : blob.content.length < 0x8000000000000000)
include fits

theorem ofJson?_descriptor : BlobDescriptor.ofJson? blob.descriptor = some blob.described :=
  BlobDescriptor.ofJson?_record (asInt64?_nat fits)

theorem isKept_descriptor : blob.descriptor.IsKept := by
  apply isKept_record
  simp only [List.forall_mem_cons]
  exact ⟨isKept_str _, isKept_str _, isKept_nat (by omega), nofun⟩

end StoredBlob

namespace ImageFixture

/-- The manifest is read back with the config and the layers that it names. -/
theorem read?_manifest {config : StoredBlob} {layers : List StoredBlob}
    (configFits : config.content.length < 0x8000000000000000)
    (layersFit : ∀ layer ∈ layers, layer.content.length < 0x8000000000000000) :
    (Json.read? (manifest config layers).content).bind ImageManifest.ofJson? =
      some ⟨config.described, layers.map StoredBlob.described⟩ := by
  have listed : (Value.list StoredBlob.descriptor layers).asList? BlobDescriptor.ofJson? =
      some (layers.map StoredBlob.described) := by
    apply asList?_list
    intro layer member
    exact StoredBlob.ofJson?_descriptor (layersFit layer member)
  rw [manifest, StoredBlob.ofDocument, StoredBlob.ofContent, read?_write, Option.bind_some]
  · exact ImageManifest.ofJson?_record (StoredBlob.ofJson?_descriptor configFits) listed
  · have layersKept : (Value.list StoredBlob.descriptor layers).IsKept := by
      apply isKept_list
      intro layer member
      exact StoredBlob.isKept_descriptor (layersFit layer member)
    apply isKept_record
    simp only [List.forall_mem_cons]
    exact ⟨StoredBlob.isKept_descriptor configFits, layersKept, isKept_str _,
      isKept_nat (by decide), nofun⟩

/-- The index is read back with the manifest alone. -/
theorem read?_index {manifest : StoredBlob}
    (fits : manifest.content.length < 0x8000000000000000) :
    (Json.read? (Bytes.ofText (index manifest))).bind ImageIndex.ofJson? =
      some ⟨[manifest.described]⟩ := by
  have listed : (Value.list StoredBlob.descriptor [manifest]).asList? BlobDescriptor.ofJson? =
      some [manifest.described] := by
    apply asList?_list
    intro blob member
    rw [List.mem_singleton.mp member]
    exact StoredBlob.ofJson?_descriptor fits
  rw [index, read?_write, Option.bind_some]
  · exact ImageIndex.ofJson?_record listed
  · have manifestsKept : (Value.list StoredBlob.descriptor [manifest]).IsKept := by
      apply isKept_list
      intro blob member
      rw [List.mem_singleton.mp member]
      exact StoredBlob.isKept_descriptor fits
    apply isKept_record
    simp only [List.forall_mem_cons]
    exact ⟨manifestsKept, isKept_nat (by decide), nofun⟩

/-- The config is read back with the digests of the archives. -/
theorem read?_config (image : ImageFixture) :
    ∃ config, (Json.read? image.config.content).bind ImageConfig.ofJson? = some config ∧
      config.rootFileSystem.diffIds = image.archives.map StoredBlob.digestOf := by
  have listed : (Value.list (fun archive => .str (StoredBlob.digestOf archive))
      image.archives).asStrings? = some (image.archives.map StoredBlob.digestOf) := by
    apply asList?_list
    intro archive member
    rfl
  rw [config, StoredBlob.ofDocument, StoredBlob.ofContent, read?_write]
  · exact ImageConfig.rootFileSystem_ofJson?_record listed
  · have digestsKept : (Value.list (fun archive => .str (StoredBlob.digestOf archive))
        image.archives).IsKept := by
      apply isKept_list
      intro archive member
      exact isKept_str _
    have single (name : String) {value : Value} (kept : value.IsKept) :
        (Value.record [(name, value)]).IsKept := by
      apply isKept_record
      simp only [List.forall_mem_cons]
      exact ⟨kept, nofun⟩
    have fileSystem : (Value.record [("diff_ids", Value.list (fun archive =>
        .str (StoredBlob.digestOf archive)) image.archives), ("type", .str "layers")]).IsKept := by
      apply isKept_record
      simp only [List.forall_mem_cons]
      exact ⟨digestsKept, isKept_str _, nofun⟩
    apply isKept_record
    simp only [List.forall_mem_cons]
    exact ⟨isKept_str _, single _ (single _ (isKept_str _)), isKept_str _, fileSystem, nofun⟩

end ImageFixture

end Fixture

end ImageAudit
