import ImageAudit.Fixture.Layout
import ImageAudit.Image.Layout
import ImageAudit.Proofs.Staging

/-! # Where the digest of a layer leads

The digest of a layer is taken from the manifest as it stands and becomes part of two paths: that of
the directory for temporary files and that of the blob. The directory lies directly in that of the
run exactly when the digest holds no slash. The blob lies in the directory of blobs where neither
part of the digest begins at the root and its `..` never lead out. Nothing checks a digest for
this, so a manifest can name paths outside both directories.
-/

namespace ImageAudit

namespace Path

/-- Whether segments that are taken one by one, from so many levels below a directory, never lead
above it. -/
def staysBelow : Nat → List Segment → Bool
  | _, [] => true
  | depth, segment :: rest =>
    if segment = [] ∨ segment = ['.'] then staysBelow depth rest
    else if segment = ['.', '.'] then
      match depth with
      | 0 => false
      | depth + 1 => staysBelow depth rest
    else staysBelow (depth + 1) rest

/-- Segments that never lead above a directory keep the way to it. -/
theorem suffix_foldl_of_staysBelow {segments : List Segment} {depth : Nat}
    (inner base : List Segment)
    (levels : inner.length = depth) (stays : staysBelow depth segments = true) :
    base <:+ segments.foldl resolveSegment (inner ++ base) := by
  induction segments generalizing depth inner with
  | nil => exact List.suffix_append ..
  | cons segment segments ih =>
    rw [List.foldl_cons, resolveSegment]
    unfold staysBelow at stays
    split_ifs at stays ⊢
    · exact ih inner levels stays
    · cases depth with
      | zero => cases stays
      | succ depth =>
        cases inner with
        | nil => cases levels
        | cons name inner => exact ih inner (Nat.succ.inj levels) stays
    · exact ih (segment :: inner) (congrArg (· + 1) levels) stays

/-- A path below another is resolved against it, unless it begins at the root. -/
theorem resolve_below {path : String} (relative : Text.startsWith path "/" = false)
    (base : String) :
    resolve (below base path).toList =
      ((path.toList.splitOn '/').foldl resolveSegment (resolve base.toList).reverse).reverse := by
  rw [below, if_neg (Bool.not_eq_true _ |>.mpr relative)]
  split_ifs with ends
  · rw [String.toList_append]
    rcases ends with rfl | slash
    · rfl
    · obtain ⟨before, text⟩ := List.isSuffixOf_iff_suffix.mp slash
      have slash : "/".toList = '/' :: [] := rfl
      rw [← text, slash, List.append_assoc, List.singleton_append, resolve_append_slash,
        resolve_append_slash, List.reverse_reverse]
      rfl
  · rw [String.toList_append, String.toList_append, List.append_assoc]
    exact resolve_append_slash base.toList path.toList

/-- A name below a path lies directly in it. -/
theorem IsName.resolve_below {name : String} (proper : IsName name.toList) (base : String) :
    resolve (below base name).toList = resolve base.toList ++ [name.toList] := by
  have relative : Text.startsWith name "/" = false := by
    rw [Text.startsWith, ← Bool.not_eq_true, List.isPrefixOf_iff_prefix]
    exact fun starts => proper.noSlash (starts.subset (List.mem_singleton_self _))
  rw [Path.resolve_below relative, List.splitOn_eq_singleton proper.noSlash, List.foldl_cons,
    List.foldl_nil, proper.resolveSegment, List.reverse_cons, List.reverse_reverse]

end Path

/-- Neither part of a digest begins at the root, and taken one after the other they never lead above
the directory in which they are looked up. -/
structure Digest.StaysBelow (digest : String) : Prop where
  algorithm : Text.startsWith (split digest).1 "/" = false
  value : Text.startsWith (split digest).2 "/" = false
  stays : Path.staysBelow 0
    ((split digest).1.toList.splitOn '/' ++ (split digest).2.toList.splitOn '/') = true

/-- Such a digest names a blob that lies in the directory of blobs. -/
theorem ImageLayout.prefix_resolve_blobPath {digest : String} (stays : Digest.StaysBelow digest)
    (root : String) :
    Path.resolve (Path.below root "blobs").toList <+:
      Path.resolve (blobPath root digest).toList := by
  rw [blobPath, Path.resolve_below stays.value, Path.resolve_below stays.algorithm,
    List.reverse_reverse, ← List.foldl_append, ← List.reverse_suffix, List.reverse_reverse]
  exact Path.suffix_foldl_of_staysBelow [] _ rfl stays.stays

/-- The name of a layer is a name of something in a directory exactly when its digest holds no
slash. -/
theorem LayerDescriptor.isName_id_iff (layer : LayerDescriptor) :
    Path.IsName layer.id.toList ↔ '/' ∉ layer.digest.toList := by
  refine ⟨fun proper slash => proper.noSlash ?_, isName_id⟩
  rw [toList_id]
  exact List.mem_append_right _ (List.mem_cons_of_mem _ slash)

/-- A layer has a directory directly in that of the run, and nothing else is made for it, exactly
when its digest holds no slash. Its blob lies in the directory of blobs if the digest does not lead
out of it. -/
theorem layer_confined (image : ImageLayout) (staging : Staging) (layer : LayerDescriptor) :
    (Path.IsName layer.id.toList ↔ '/' ∉ layer.digest.toList) ∧
    ('/' ∉ layer.digest.toList →
      Path.resolve (staging.layerDirectory layer).toList =
        Path.resolve staging.path.toList ++ [layer.id.toList] ∧
      ∀ tree between run place, tree.follow (FileTree.components staging.path) = .ok run →
        tree.node? run = some .directory → staging.prepare layer tree = (.ok place, between) →
        place = run ++ [layer.id] ∧ FileTree.SameOutside place tree between) ∧
    (Digest.StaysBelow layer.digest →
      Path.resolve (Path.below image.root "blobs").toList <+:
        Path.resolve (ImageLayout.blobPath image.root layer.digest).toList) := by
  refine ⟨layer.isName_id_iff, fun noSlash => ⟨?_, ?_⟩, fun stays => ?_⟩
  · exact (LayerDescriptor.isName_id noSlash).resolve_below staging.path
  · intro tree between run place reached directory prepared
    obtain rfl := Staging.eq_of_prepare_eq_ok noSlash reached directory prepared
    have same := Staging.sameOutside_prepare noSlash reached directory
    rw [prepared] at same
    exact ⟨rfl, same⟩
  · exact ImageLayout.prefix_resolve_blobPath stays image.root

section Sample

open Fixture (StoredBlob ImageFixture)

/-- The layout directory of an image with one layer, whose digest is as given. -/
def sampleLayout (digest : String) : FileTree :=
  let config : StoredBlob := ⟨"", Bytes.ofText "\x7b\x7d", "c"⟩
  let manifest := { ImageFixture.manifest config [⟨"", [], digest⟩] with digest := "m" }
  let files := [config, manifest].foldl (StoredBlob.addTo "/image") .empty
  (files.addFile "/image/index.json" (Bytes.ofText (ImageFixture.index manifest))).addFile
    "/image/oci-layout" []

private theorem exists_openImage_sampleLayout :
    ∃ image, ImageLayout.openImage (sampleLayout "a/../../../b") "/image" true = .ok image ∧
      image.root = "/image" ∧ image.layers = [⟨0, "a/../../../b", "", 0⟩] := by
  have read : ((ImageLayout.openImage (sampleLayout "a/../../../b") "/image" true).toOption.map
      fun image => (image.root, image.layers)) =
        some ("/image", [⟨0, "a/../../../b", "", 0⟩]) := by
    decide +kernel
  cases opened : ImageLayout.openImage (sampleLayout "a/../../../b") "/image" true with
  | error failure =>
    rw [opened] at read
    cases read
  | ok image =>
    rw [opened] at read
    obtain ⟨root, layers⟩ := Prod.mk.inj (Option.some.inj read)
    exact ⟨image, rfl, root, layers⟩

/-- A digest of the usual form leads nowhere else, and neither does one that only goes from one
directory of blobs to another. -/
theorem layer_confined_sample :
    '/' ∉ "sha256:5a".toList ∧ Digest.StaysBelow "sha256:../sha256/5a" ∧
      (∀ image : ImageLayout, image.root = "/image" →
        [['i', 'm', 'a', 'g', 'e'], ['b', 'l', 'o', 'b', 's']] <+:
          Path.resolve (ImageLayout.blobPath image.root "sha256:../sha256/5a").toList) ∧
      Path.resolve (Staging.layerDirectory ⟨"/tmp/rpm-layers-x"⟩ ⟨0, "sha256:5a", "", 0⟩).toList =
        [['t', 'm', 'p'], "rpm-layers-x".toList, "00-sha256:5a".toList] := by
  have noSlash : '/' ∉ "sha256:5a".toList := by decide
  have stays : Digest.StaysBelow "sha256:../sha256/5a" := ⟨by decide, by decide, by decide⟩
  refine ⟨noSlash, stays, ?_, ?_⟩
  · intro image root
    have inside := (layer_confined image ⟨"/tmp"⟩ ⟨0, "sha256:../sha256/5a", "", 0⟩).2.2 stays
    rw [root] at inside ⊢
    exact inside
  · exact ((layer_confined ⟨"", ⟨"", "", none, ⟨none, none, none⟩, ⟨"", []⟩⟩, [], true⟩
      ⟨"/tmp/rpm-layers-x"⟩ ⟨0, "sha256:5a", "", 0⟩).2.1 noSlash).1

/-- An image can be opened whose layer has neither its directory in that of the run nor its blob in
the directory of blobs. -/
theorem not_forall_layer_confined :
    (¬ ∀ (files : FileTree) (root : String) (verifiesDigests : Bool) (image : ImageLayout),
      ImageLayout.openImage files root verifiesDigests = .ok image → ∀ layer ∈ image.layers,
      Path.IsName layer.id.toList) ∧
    (¬ ∀ (files : FileTree) (root : String) (verifiesDigests : Bool) (image : ImageLayout),
      ImageLayout.openImage files root verifiesDigests = .ok image → ∀ layer ∈ image.layers,
      ∀ staging : Staging, Path.resolve staging.path.toList <+:
        Path.resolve (staging.layerDirectory layer).toList) ∧
    ¬ ∀ (files : FileTree) (root : String) (verifiesDigests : Bool) (image : ImageLayout),
      ImageLayout.openImage files root verifiesDigests = .ok image → ∀ layer ∈ image.layers,
      Path.resolve (Path.below image.root "blobs").toList <+:
        Path.resolve (ImageLayout.blobPath image.root layer.digest).toList := by
  obtain ⟨image, opened, root, layers⟩ := exists_openImage_sampleLayout
  have listed : ⟨0, "a/../../../b", "", 0⟩ ∈ image.layers := by
    rw [layers]
    exact List.mem_singleton_self _
  refine ⟨fun named => ?_, fun inside => ?_, fun inside => ?_⟩
  · exact (named _ _ _ image opened _ listed).noSlash (by decide)
  · exact absurd (inside _ _ _ image opened _ listed ⟨"/tmp/rpm-layers-x"⟩) (by decide)
  · have leads := inside _ _ _ image opened _ listed
    rw [root] at leads
    exact absurd leads (by decide)

end Sample

end ImageAudit
