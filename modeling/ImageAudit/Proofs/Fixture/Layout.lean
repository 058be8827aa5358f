import ImageAudit.Proofs.FileTree.Building
import ImageAudit.Proofs.Fixture.Documents
import ImageAudit.Proofs.Layer.Blob
import ImageAudit.Proofs.Sha256

/-! # An image that was written is opened again

The layout directory of a fixture holds every blob under its digest, and the index beside them.
Blobs of one digest share a file; as long as they are the same blob, the one that is written last
leaves what the others need. So the documents are found and read, each layer of the fixture is a
layer of the image, in order, and is opened as its archive.
-/

namespace ImageAudit.Fixture

open FileTree

/-- The names that lead from a layout directory to its blobs. -/
def blobNames : Place := ["blobs", "sha256"]

def blobDirectory (root : String) : Place := placeOf root ++ blobNames

/-- No two contents have the same digest. -/
def DigestsTellApart (blobs : List StoredBlob) : Prop :=
  ∀ blob ∈ blobs, ∀ other ∈ blobs,
    Digest.sha256 blob.content = Digest.sha256 other.content → blob.content = other.content

/-- Each blob lies under its digest. -/
def HoldsBlobs (tree : FileTree) (root : String) (blobs : List StoredBlob) : Prop :=
  ∀ blob ∈ blobs, tree.node? (blobDirectory root ++ [Digest.sha256 blob.content]) =
    some (.file blob.content)

/-- A name of something in a layout directory. -/
structure IsLayoutName (name : String) : Prop where
  proper : Path.IsName name.toList
  noZero : '\x00' ∉ name.toList
  short : name.utf8ByteSize < 78

theorem isLayoutName_blobs : IsLayoutName "blobs" :=
  ⟨⟨by decide, by decide, by decide, by decide⟩, by decide, by decide⟩

theorem isLayoutName_sha256 : IsLayoutName "sha256" :=
  ⟨⟨by decide, by decide, by decide, by decide⟩, by decide, by decide⟩

theorem isLayoutName_index : IsLayoutName "index.json" :=
  ⟨⟨by decide, by decide, by decide, by decide⟩, by decide, by decide⟩

theorem isLayoutName_mark : IsLayoutName "oci-layout" :=
  ⟨⟨by decide, by decide, by decide, by decide⟩, by decide, by decide⟩

theorem IsLayoutName.le_maxNameSize {name : String} (named : IsLayoutName name) :
    name.utf8ByteSize ≤ maxNameSize :=
  Nat.le_trans (Nat.le_of_lt named.short) (by decide)

theorem placeOf_blob (root : String) {blob : StoredBlob}
    (own : blob.digest = StoredBlob.digestOf blob.content) :
    placeOf (root ++ "/blobs/sha256/" ++ (Digest.split blob.digest).2) =
      blobDirectory root ++ [Digest.sha256 blob.content] := by
  have joined : root ++ "/blobs/sha256/" = root ++ "/" ++ "blobs" ++ "/" ++ "sha256" ++ "/" := by
    simp only [String.append_assoc]
    rfl
  rw [own, Digest.split_digestOf, joined, placeOf_append_slash, placeOf_append_slash,
    placeOf_append_slash, placeOf_name isLayoutName_blobs.proper,
    placeOf_name isLayoutName_sha256.proper, placeOf_name (Digest.isName_sha256 _), blobDirectory,
    blobNames]
  simp only [List.append_assoc, List.cons_append, List.nil_append]

theorem placeOf_beside (root : String) {name : String} (named : IsLayoutName name) :
    placeOf (root ++ "/" ++ name) = placeOf root ++ [name] := by
  rw [placeOf_append_slash, placeOf_name named.proper]

section Blobs

variable {root : String} {tree : FileTree} {blobs : List StoredBlob} {blob : StoredBlob}
variable (own : blob.digest = StoredBlob.digestOf blob.content)
include own

/-- A blob that is added lies below directories. -/
theorem hasDirectories_addTo :
    (StoredBlob.addTo root tree blob).HasDirectories (blobDirectory root) := by
  have place := placeOf_blob root own
  intro upper above
  rw [StoredBlob.addTo, node?_addFile_above]
  · rwa [place, List.dropLast_concat]
  · rintro rfl
    rw [place] at above
    exact absurd above (not_prefix_concat _ _)

/-- A blob that is added lies under its digest, and so do those before it, unless one of them is
another blob of the same digest. -/
theorem HoldsBlobs.addTo (holds : HoldsBlobs tree root blobs)
    (apart : DigestsTellApart (blobs ++ [blob])) :
    HoldsBlobs (StoredBlob.addTo root tree blob) root (blobs ++ [blob]) := by
  have place := placeOf_blob root own
  intro other member
  rw [StoredBlob.addTo]
  -- A blob of the same digest is written over with itself; any other lies in another file.
  by_cases same : Digest.sha256 other.content = Digest.sha256 blob.content
  · have last : blob ∈ blobs ++ [blob] := List.mem_append_right _ (List.mem_singleton_self _)
    rw [apart other member blob last same]
    exact node?_addFile_self _ place
  · have earlier : other ∈ blobs := by
      rcases List.mem_append.mp member with earlier | last
      · exact earlier
      · exact absurd (by rw [List.mem_singleton.mp last]) same
    rw [node?_addFile_elsewhere, holds other earlier]
    rw [place, List.prefix_append_right_inj]
    intro above
    exact same (List.cons_prefix_cons.mp above).1

end Blobs

/-- After all blobs were added, each lies under its digest. -/
theorem holdsBlobs_foldl {blobs : List StoredBlob} (root : String) (tree : FileTree)
    (own : ∀ blob ∈ blobs, blob.digest = StoredBlob.digestOf blob.content)
    (apart : DigestsTellApart blobs) :
    HoldsBlobs (blobs.foldl (StoredBlob.addTo root) tree) root blobs := by
  induction blobs using List.reverseRecOn with
  | nil => exact fun blob member => absurd member List.not_mem_nil
  | append_singleton blobs blob ih =>
    obtain ⟨owned, last⟩ := List.forall_mem_append.mp own
    have before : DigestsTellApart blobs := by
      intro first member second member' same
      exact apart first (List.mem_append_left _ member) second (List.mem_append_left _ member') same
    rw [List.foldl_concat]
    exact (ih owned before).addTo (last blob (List.mem_singleton_self _)) apart

section Beside

variable {root name : String} {tree : FileTree} {content : Bytes} {blobs : List StoredBlob}
variable (named : IsLayoutName name)
include named

/-- A file beside the directory for blobs changes no blob. -/
theorem HoldsBlobs.addFile (holds : HoldsBlobs tree root blobs) :
    HoldsBlobs (tree.addFile (root ++ "/" ++ name) content) root blobs := by
  intro blob member
  rw [node?_addFile_elsewhere, holds blob member]
  rw [placeOf_beside root named, blobDirectory, List.append_assoc, List.prefix_append_right_inj]
  intro above
  exact absurd above.length_le (by simp [blobNames])

/-- It leaves the directories on the way to them. -/
theorem hasDirectories_addFile (other : name ≠ "blobs")
    (directories : tree.HasDirectories (blobDirectory root)) :
    (tree.addFile (root ++ "/" ++ name) content).HasDirectories (blobDirectory root) := by
  intro upper above
  apply node?_addFile_directory _ _ (directories upper above)
  rintro rfl
  rw [placeOf_beside root named, blobDirectory, List.prefix_append_right_inj] at above
  exact other (List.cons_prefix_cons.mp above).1

end Beside

section Reading

variable {root name : String} {tree : FileTree} {content : Bytes}
variable (direct : IsDirect root) (hasRoom : HasRoom root 78)
variable (directories : tree.HasDirectories (blobDirectory root))
include direct hasRoom directories

/-- What lies in a layout directory is found under its name. -/
theorem find?_beside (named : IsLayoutName name) :
    tree.find? (Path.below root name) = tree.node? (placeOf root ++ [name]) := by
  have onTheWay := directories.of_prefix (List.prefix_append ..)
  apply find?_below named.proper named.le_maxNameSize (IsDirect.follow direct onTheWay)
    onTheWay.self
  apply HasRoom.below _ named.noZero
  rw [Nat.zero_add]
  exact hasRoom.of_le named.short

theorem contains_beside (named : IsLayoutName name) {node : FileNode}
    (lies : tree.node? (placeOf root ++ [name]) = some node) :
    tree.contains (Path.below root name) = true := by
  rw [FileTree.contains, find?_beside direct hasRoom directories named, lies]
  rfl

/-- A blob is found under its digest. Its path is longer than that of the directory by two names, 64
digits and three slashes, which makes 78 bytes. -/
theorem find?_blobPath :
    tree.find? (ImageLayout.blobPath root (StoredBlob.digestOf content)) =
      tree.node? (blobDirectory root ++ [Digest.sha256 content]) := by
  have split : blobDirectory root = placeOf root ++ ["blobs"] ++ ["sha256"] := by
    rw [blobDirectory, blobNames, List.append_assoc]
    rfl
  rw [split] at directories ⊢
  have blobs := directories.of_prefix (List.prefix_append ..)
  have top := blobs.of_prefix (List.prefix_append ..)
  have toBlobs := follow_below isLayoutName_blobs.proper isLayoutName_blobs.le_maxNameSize
    (IsDirect.follow direct top) top.self (by rw [blobs.self]; rfl)
  have toAlgorithm := follow_below isLayoutName_sha256.proper isLayoutName_sha256.le_maxNameSize
    toBlobs blobs.self (by rw [directories.self]; rfl)
  have digits := Digest.utf8ByteSize_sha256 content
  simp only [ImageLayout.blobPath, Digest.split_digestOf]
  apply find?_below (Digest.isName_sha256 _) _ toAlgorithm directories.self
  · have roomBehind : HasRoom (Path.below root "blobs") 72 :=
      HasRoom.below hasRoom isLayoutName_blobs.noZero
    have roomBehind' : HasRoom (Path.below (Path.below root "blobs") "sha256") 65 :=
      HasRoom.below roomBehind isLayoutName_sha256.noZero
    apply HasRoom.below _ (Digest.zero_not_mem_sha256 content)
    rwa [digits]
  · rw [digits]
    decide

end Reading

namespace ImageFixture

open ImageLayout (readText readDocument)

def manifestBlob (image : ImageFixture) (pack : Bytes → Bytes) : StoredBlob :=
  manifest image.config (image.layerBlobs pack)

def blobs (image : ImageFixture) (pack : Bytes → Bytes) : List StoredBlob :=
  image.layerBlobs pack ++ [image.config, image.manifestBlob pack]

variable {image : ImageFixture} {pack : Bytes → Bytes} {tree : FileTree} {root : String}

theorem digest_of_mem_blobs {blob : StoredBlob}
    (member : blob ∈ image.blobs pack) : blob.digest = StoredBlob.digestOf blob.content := by
  rcases List.mem_append.mp member with layer | document
  · obtain ⟨archive, -, rfl⟩ := List.mem_map.mp layer
    unfold layerBlob
    split <;> rfl
  · rcases List.mem_cons.mp document with rfl | last
    · rfl
    · rw [List.mem_singleton.mp last]
      rfl

/-- A tree with the layout directory of an image. -/
structure IsLayout (tree : FileTree) (root : String) (image : ImageFixture)
    (pack : Bytes → Bytes) : Prop where
  directories : tree.HasDirectories (blobDirectory root)
  blobs : HoldsBlobs tree root (image.blobs pack)
  index : tree.node? (placeOf root ++ ["index.json"]) =
    some (.file (Bytes.ofText (index (image.manifestBlob pack))))
  mark : tree.node? (placeOf root ++ ["oci-layout"]) = some (.file (Bytes.ofText layoutMark))

/-- An image that is written has its layout directory, whatever was there before. -/
theorem isLayout_write (root : String) (files : FileTree)
    (apart : DigestsTellApart (image.blobs pack)) :
    IsLayout (image.write root files pack).files root image pack := by
  have indexPath : root ++ "/index.json" = root ++ "/" ++ "index.json" := by
    rw [String.append_assoc]
    rfl
  have markPath : root ++ "/oci-layout" = root ++ "/" ++ "oci-layout" := by
    rw [String.append_assoc]
    rfl
  have stored := holdsBlobs_foldl root files (fun blob => digest_of_mem_blobs) apart
  have directories : ((image.blobs pack).foldl (StoredBlob.addTo root) files).HasDirectories
      (blobDirectory root) := by
    have last : image.blobs pack =
        image.layerBlobs pack ++ [image.config] ++ [image.manifestBlob pack] := by
      rw [blobs, List.append_assoc]
      rfl
    rw [last, List.foldl_concat]
    exact hasDirectories_addTo rfl
  rw [write]
  dsimp only
  rw [← manifestBlob, ← blobs, indexPath, markPath]
  generalize (image.blobs pack).foldl (StoredBlob.addTo root) files = tree at stored directories ⊢
  have indexPlace := placeOf_beside root isLayoutName_index
  have markPlace := placeOf_beside root isLayoutName_mark
  constructor
  · apply hasDirectories_addFile isLayoutName_mark (by decide)
    exact hasDirectories_addFile isLayoutName_index (by decide) directories
  · exact (stored.addFile isLayoutName_index).addFile isLayoutName_mark
  · rw [node?_addFile_elsewhere, node?_addFile_self _ indexPlace]
    rw [markPlace, List.prefix_append_right_inj]
    decide
  · exact node?_addFile_self _ markPlace

section Listed

variable (image : ImageFixture) (pack : Bytes → Bytes)

def listedLayers : List LayerDescriptor :=
  ImageManifest.layerDescriptors
    ⟨image.config.described, (image.layerBlobs pack).map StoredBlob.described⟩

@[simp] theorem length_listedLayers :
    (image.listedLayers pack).length = image.archives.length := by
  simp [listedLayers, ImageManifest.layerDescriptors, layerBlobs]

theorem getElem?_layerBlobs {index : Nat} {archive : Bytes}
    (archived : image.archives[index]? = some archive) :
    (image.layerBlobs pack)[index]? = some (layerBlob pack image.usesGzip archive) := by
  simp [layerBlobs, archived]

theorem getElem?_listedLayers {index : Nat} {blob : StoredBlob}
    (stored : (image.layerBlobs pack)[index]? = some blob) :
    (image.listedLayers pack)[index]? =
      some ⟨index, blob.digest, blob.mediaType, Int64.ofInt blob.content.length⟩ := by
  simp [listedLayers, ImageManifest.layerDescriptors, stored, StoredBlob.described]

/-- Every layer has the digest of its archive in the config. -/
theorem diffIds_listedLayers (root : String) {config : ImageConfig}
    (digests : config.rootFileSystem.diffIds = image.archives.map StoredBlob.digestOf) :
    ImageLayout.diffIds ⟨root, config, image.listedLayers pack, true⟩ =
      image.archives.map StoredBlob.digestOf := by
  apply List.ext_getElem?
  intro index
  cases archived : image.archives[index]? with
  | none =>
    have past := List.getElem?_eq_none_iff.mp archived
    simp [ImageLayout.diffIds, past]
  | some archive =>
    have listed := getElem?_listedLayers image pack (getElem?_layerBlobs image pack archived)
    simp [ImageLayout.diffIds, listed, archived, ImageConfig.diffId, digests]

end Listed

section Opening

/-- A text that lies at a path is read there as a document. -/
theorem readDocument_of_find? {α : Type} {text document path : String}
    {decode? : Json.Value → Option α} {read : α}
    (lies : tree.find? path = some (.file (Bytes.ofText text)))
    (decoded : (Json.read? (Bytes.ofText text)).bind decode? = some read) :
    readDocument tree document path decode? = .ok read := by
  have readable : readText tree document path = .ok (Bytes.ofText text) := by
    rw [readText, FileTree.content?, lies]
    exact if_pos (Utf8.isValid_ofText text)
  rw [readDocument, readable, Fallible.ok_bind, decoded]
  rfl

variable (layout : IsLayout tree root image pack)
variable (direct : IsDirect root) (hasRoom : HasRoom root 78)
include layout direct hasRoom

/-- Everything that a layout directory must hold is there. -/
theorem contains_requiredName : ∀ name ∈ ImageLayout.requiredNames,
    tree.contains (Path.below root name) = true := by
  have directories := layout.directories
  have blobs : tree.node? (placeOf root ++ ["blobs"]) = some .directory := by
    refine directories _ ?_
    rw [blobDirectory, List.prefix_append_right_inj]
    exact List.prefix_append ["blobs"] ["sha256"]
  simp only [ImageLayout.requiredNames, List.forall_mem_cons]
  refine ⟨?_, ?_, ?_, nofun⟩
  · exact contains_beside direct hasRoom directories isLayoutName_mark layout.mark
  · exact contains_beside direct hasRoom directories isLayoutName_index layout.index
  · exact contains_beside direct hasRoom directories isLayoutName_blobs blobs

/-- A blob of the image lies at the path for its digest. -/
theorem find?_blob {blob : StoredBlob} (member : blob ∈ image.blobs pack) :
    tree.find? (ImageLayout.blobPath root blob.digest) = some (.file blob.content) := by
  rw [digest_of_mem_blobs member, find?_blobPath direct hasRoom layout.directories]
  exact layout.blobs blob member

/-- The image in a layout directory has the config and the layers that were written. -/
theorem read_of_isLayout
    (fit : ∀ blob ∈ image.blobs pack, blob.content.length < 0x8000000000000000) :
    ∃ config, config.rootFileSystem.diffIds = image.archives.map StoredBlob.digestOf ∧
      ImageLayout.read tree root true = .ok ⟨root, config, image.listedLayers pack, true⟩ := by
  obtain ⟨layersFit, documentsFit⟩ := List.forall_mem_append.mp fit
  obtain ⟨configFits, manifestFits⟩ := List.forall_mem_cons.mp documentsFit
  have manifestFits := manifestFits _ (List.mem_singleton_self _)
  have configListed : image.config ∈ image.blobs pack :=
    List.mem_append_right _ (List.mem_cons_self ..)
  have manifestListed : image.manifestBlob pack ∈ image.blobs pack :=
    List.mem_append_right _ (List.mem_cons_of_mem _ (List.mem_singleton_self _))
  have index : tree.find? (Path.below root "index.json") =
      some (.file (Bytes.ofText (index (image.manifestBlob pack)))) := by
    rw [find?_beside direct hasRoom layout.directories isLayoutName_index, layout.index]
  have manifestLies := find?_blob layout direct hasRoom manifestListed
  have configLies := find?_blob layout direct hasRoom configListed
  obtain ⟨config, decoded, diffIds⟩ := read?_config image
  refine ⟨config, diffIds, ?_⟩
  have present := contains_requiredName layout direct hasRoom
  simp only [ImageLayout.requiredNames, List.forall_mem_cons] at present
  obtain ⟨hasMark, hasIndex, hasBlobs, -⟩ := present
  simp only [ImageLayout.read, ImageLayout.requiredNames, List.forIn_cons, List.forIn_nil, hasMark,
    hasIndex, hasBlobs, Bool.not_true, Bool.false_eq_true, if_false, pure_bind]
  rw [readDocument_of_find? index (read?_index manifestFits), Fallible.ok_bind]
  simp only [List.head?_cons, StoredBlob.described_digest]
  rw [readDocument_of_find? manifestLies (read?_manifest configFits layersFit), Fallible.ok_bind]
  simp only [StoredBlob.described_digest]
  rw [readDocument_of_find? configLies decoded, Fallible.ok_bind]
  rfl

end Opening

def ofLayers (layers : List (List LayerEntry)) (usesGzip : Bool) : ImageFixture :=
  ⟨layers.map archive, usesGzip⟩

/-- An image whose blobs are told apart by their digests is opened again from where it was written,
with every digest checked: it has its layers in order, each with its position, the digest that was
returned, its media type and size, and the digest of its archive; and each is opened as its archive,
whether it was stored as it is or in gzip, by whatever packer. -/
theorem openImage_write (packer : Gzip.IsPacker pack) (layers : List (List LayerEntry))
    (usesGzip : Bool) (root : String) (files : FileTree) (direct : IsDirect root)
    (hasRoom : HasRoom root 78)
    (fit : ∀ blob ∈ (ofLayers layers usesGzip).blobs pack,
      blob.content.length < 0x8000000000000000)
    (apart : DigestsTellApart ((ofLayers layers usesGzip).blobs pack)) :
    let written := (ofLayers layers usesGzip).write root files pack
    ∃ image, ImageLayout.openImage written.files root true = .ok image ∧
      image.layers.length = layers.length ∧
      image.diffIds = layers.map (fun entries => StoredBlob.digestOf (archive entries)) ∧
      ∀ index entries, layers[index]? = some entries →
        let stored := layerBlob pack usesGzip (archive entries)
        ∃ layer, image.layers[index]? = some layer ∧ layer.index = index ∧
          written.digests[index]? = some layer.digest ∧ layer.mediaType = stored.mediaType ∧
          layer.size.toInt = (stored.content.length : Int) ∧
          image.openLayer written.files layer = .ok (.ofBytes (archive entries)) := by
  intro written
  have layout : IsLayout written.files root (ofLayers layers usesGzip) pack :=
    isLayout_write root files apart
  obtain ⟨config, digests, read⟩ := read_of_isLayout layout direct hasRoom fit
  refine ⟨_, Fallible.mapError_eq_ok_iff.mpr read, ?_, ?_, ?_⟩
  · exact (length_listedLayers ..).trans (List.length_map ..)
  · exact (diffIds_listedLayers (ofLayers layers usesGzip) pack root digests).trans List.map_map
  · intro index entries given stored
    have archived : (ofLayers layers usesGzip).archives[index]? = some (archive entries) := by
      simp [ofLayers, given]
    have listed : ((ofLayers layers usesGzip).layerBlobs pack)[index]? = some stored :=
      getElem?_layerBlobs _ pack archived
    have member : stored ∈ (ofLayers layers usesGzip).blobs pack :=
      List.mem_append_left _ (List.mem_of_getElem? listed)
    have small := fit stored member
    refine ⟨_, getElem?_listedLayers _ pack listed, rfl, ?_, rfl, ?_, ?_⟩
    · exact (List.getElem?_map ..).trans (by rw [listed]; rfl)
    · exact Int64.toInt_ofInt_of_le (by omega) (by omega)
    · have lies := find?_blob layout direct hasRoom member
      have opened := openLayer_layerBlob packer (ImageLayout.blobPath root stored.digest) usesGzip
        entries
      unfold ImageLayout.openLayer
      dsimp only
      rw [Fallible.mapError_eq_ok_iff, lies]
      exact opened

section Sample

/-- A layer with one file. -/
def sampleLayer : List LayerEntry := [.file "etc/motd" 0o644 (Bytes.ofText "Hi")]

/-- An image that has the layer twice, in gzip. -/
def sampleImage : ImageFixture := ofLayers [sampleLayer, sampleLayer] true

def sampleBlob : StoredBlob := layerBlob Gzip.Writer.compress true (archive sampleLayer)

-- Each content is put together from the digests before it, so that none is computed twice.
private theorem sha256_sampleArchive : Digest.sha256 (archive sampleLayer) =
    "860bbe34c7454d4d5f44a26fc46c644871511a1722b8b05be3772957a8dd515a" := by
  rw [Digest.sha256, Sha256.digest_eq]
  decide +kernel

private theorem checksum_sampleArchive : Gzip.checksum (archive sampleLayer) = 0x86b3d7af := by
  rw [Gzip.checksum_eq]
  decide +kernel

private theorem layer_sampleImage : sampleBlob.content.length = 2071 ∧
    Digest.sha256 sampleBlob.content =
      "af7a31c922f40699114f3587fbf5189e9442bdfa33726740b2f8eebd6531bc83" := by
  have packed : sampleBlob.content = Gzip.Writer.compress (archive sampleLayer) := rfl
  rw [packed, Gzip.Writer.compress, checksum_sampleArchive]
  refine ⟨by decide +kernel, ?_⟩
  rw [Digest.sha256, Sha256.digest_eq]
  decide +kernel

private theorem config_sampleImage : sampleImage.config.content.length = 272 ∧
    Digest.sha256 sampleImage.config.content =
      "0b9b29c29be60fce5b04f2af17b778d4c5bca87f247722ee0971f2357c6fd680" := by
  simp only [sampleImage, config, ofLayers, StoredBlob.ofDocument, StoredBlob.ofContent,
    StoredBlob.digestOf, Json.Value.list, List.map_cons, List.map_nil, sha256_sampleArchive,
    Bytes.ofText_eq_toList]
  refine ⟨by decide +kernel, ?_⟩
  rw [Digest.sha256, Sha256.digest_eq]
  decide +kernel

private theorem descriptor_layer_sampleImage : sampleBlob.descriptor =
    .record [
      ("digest", .str ("sha256:" ++
        "af7a31c922f40699114f3587fbf5189e9442bdfa33726740b2f8eebd6531bc83")),
      ("mediaType", .str "application/vnd.oci.image.layer.v1.tar+gzip"), ("size", .nat 2071)] := by
  rw [StoredBlob.descriptor, layer_sampleImage.1, ← layer_sampleImage.2]
  rfl

private theorem descriptor_config_sampleImage : sampleImage.config.descriptor =
    .record [
      ("digest", .str ("sha256:" ++
        "0b9b29c29be60fce5b04f2af17b778d4c5bca87f247722ee0971f2357c6fd680")),
      ("mediaType", .str "application/vnd.oci.image.config.v1+json"), ("size", .nat 272)] := by
  rw [StoredBlob.descriptor, config_sampleImage.1, ← config_sampleImage.2]
  rfl

private theorem manifest_sampleImage :
    (sampleImage.manifestBlob Gzip.Writer.compress).content.length = 557 ∧
      Digest.sha256 (sampleImage.manifestBlob Gzip.Writer.compress).content =
        "d6edfd6714926d3f50a633dbeb503430e754fd267230a7172a97a8a0774ade13" := by
  have layers : sampleImage.layerBlobs Gzip.Writer.compress = [sampleBlob, sampleBlob] := rfl
  rw [manifestBlob, manifest, descriptor_config_sampleImage, layers]
  simp only [Json.Value.list, List.map_cons, List.map_nil, descriptor_layer_sampleImage,
    StoredBlob.ofDocument, StoredBlob.ofContent, Bytes.ofText_eq_toList]
  refine ⟨by decide +kernel, ?_⟩
  rw [Digest.sha256, Sha256.digest_eq]
  decide +kernel

private theorem blobs_sampleImage : sampleImage.blobs Gzip.Writer.compress =
    [sampleBlob, sampleBlob, sampleImage.config, sampleImage.manifestBlob Gzip.Writer.compress] :=
  rfl

private theorem fit_sampleImage : ∀ blob ∈ sampleImage.blobs Gzip.Writer.compress,
    blob.content.length < 0x8000000000000000 := by
  rw [blobs_sampleImage]
  simp only [List.forall_mem_cons, layer_sampleImage.1, config_sampleImage.1,
    manifest_sampleImage.1]
  exact ⟨by decide, by decide, by decide, by decide, nofun⟩

private theorem apart_sampleImage :
    DigestsTellApart (sampleImage.blobs Gzip.Writer.compress) := by
  intro blob member other member' same
  rw [blobs_sampleImage] at member member'
  simp only [List.mem_cons, List.not_mem_nil, or_false] at member member'
  rcases member with rfl | rfl | rfl | rfl <;> rcases member' with rfl | rfl | rfl | rfl
  all_goals first
    | rfl
    | simp only [layer_sampleImage.2, config_sampleImage.2, manifest_sampleImage.2] at same
      exact absurd same (by decide)

/-- Two layers with the same file share a blob in gzip, and both are opened. -/
theorem openImage_write_sample :
    let written := sampleImage.write "image" .empty
    ∃ image, ImageLayout.openImage written.files "image" true = .ok image ∧
      image.layers.length = 2 ∧
      image.diffIds = List.replicate 2 (StoredBlob.digestOf (archive sampleLayer)) ∧
      ∀ index < 2, ∃ layer, image.layers[index]? = some layer ∧
        layer.mediaType = "application/vnd.oci.image.layer.v1.tar+gzip" ∧
        image.openLayer written.files layer = .ok (.ofBytes (archive sampleLayer)) := by
  intro written
  have direct : IsDirect "image" := by
    have single : components "image" = ["image"] := by decide +kernel
    rw [IsDirect, single]
    exact List.forall_mem_singleton.mpr ⟨by decide, by decide, by decide⟩
  have hasRoom : HasRoom "image" 78 := ⟨by decide, by decide⟩
  obtain ⟨image, opened, count, diffIds, each⟩ := openImage_write Gzip.isPacker_compress
    [sampleLayer, sampleLayer] true "image" .empty direct hasRoom fit_sampleImage apart_sampleImage
  refine ⟨image, opened, count, diffIds, ?_⟩
  intro index small
  have given : [sampleLayer, sampleLayer][index]? = some sampleLayer := by
    rcases Nat.le_one_iff_eq_zero_or_eq_one.mp (Nat.le_of_lt_succ small) with rfl | rfl <;> rfl
  obtain ⟨layer, listed, -, -, mediaType, -, streams⟩ := each index sampleLayer given
  exact ⟨layer, listed, mediaType, streams⟩

end Sample

end ImageFixture

end ImageAudit.Fixture
