import ImageAudit.Fixture.Layout
import ImageAudit.Proofs.Fallible
import ImageAudit.Proofs.Gzip.Stored
import ImageAudit.Proofs.Path
import ImageAudit.Proofs.Tar.FirstBytes

/-! # Stored layers are opened

A digest is written as its algorithm, a colon and 64 digits, and is cut there again, so a stored
blob matches its own digest and its digits can name a file. A layer that was stored, plain or
packed, is opened as its archive.
-/

namespace ImageAudit

namespace Hex

theorem digit_mem {value : Nat} (small : value < 16) :
    digit value ∈ "0123456789abcdef".toList := by
  revert value
  decide

/-- Bytes are written in the sixteen digits alone. -/
theorem mem_of_mem_encode {data : Bytes} {c : Char} (member : c ∈ (encode data).toList) :
    c ∈ "0123456789abcdef".toList := by
  rw [encode, String.toList_ofList] at member
  obtain ⟨byte, -, written⟩ := List.mem_flatMap.mp member
  have bound := byte.toNat_lt
  simp only [List.mem_cons, List.not_mem_nil, or_false] at written
  rcases written with rfl | rfl
  · exact digit_mem (by omega)
  · exact digit_mem (by omega)

@[simp] theorem length_encode (data : Bytes) : (encode data).toList.length = 2 * data.length := by
  simp [encode, List.length_flatMap, Nat.mul_comm]

end Hex

namespace Digest

variable (content : Bytes)

@[simp] theorem length_sha256 : (sha256 content).toList.length = 64 := by
  simp [sha256, Sha256.digest, Sha256.State.bytes]

theorem digit_of_mem_sha256 {c : Char} (member : c ∈ (sha256 content).toList) :
    c ∈ "0123456789abcdef".toList :=
  Hex.mem_of_mem_encode member

theorem zero_not_mem_sha256 : '\x00' ∉ (sha256 content).toList := by
  intro zero
  exact absurd (digit_of_mem_sha256 content zero) (by decide)

/-- The digits of a digest can be the name of a file. -/
theorem isName_sha256 : Path.IsName (sha256 content).toList := by
  have length := length_sha256 content
  constructor
  · intro slash
    exact absurd (digit_of_mem_sha256 content slash) (by decide)
  all_goals
    intro same
    rw [same] at length
    cases length

@[simp] theorem utf8ByteSize_sha256 : (sha256 content).utf8ByteSize = 64 := by
  have ascii : ∀ c ∈ (sha256 content).toList, c.toNat < 128 := by
    intro c member
    have digits : ("0123456789abcdef".toList.all fun c => c.toNat < 128) = true := by decide
    have digit := List.all_eq_true.mp digits c (digit_of_mem_sha256 content member)
    exact of_decide_eq_true digit
  rw [← Bytes.length_ofText, Bytes.ofText_eq_flatMap, Bytes.flatMap_utf8EncodeChar_ascii ascii,
    List.length_map, length_sha256]

/-- A digest is cut into its algorithm and its digits. -/
@[simp] theorem split_digestOf :
    split (Fixture.StoredBlob.digestOf content) = ("sha256", sha256 content) := by
  simp [split, Text.splitFirst?, Fixture.StoredBlob.digestOf]

end Digest

/-- A blob matches its own digest. -/
theorem Blob.verify_digestOf (path : String) (content : Bytes) :
    verify path (.file content) (Fixture.StoredBlob.digestOf content) = .ok () := by
  simp [verify, hash, Text.eqIgnoringCase, Fallible.ok_bind, pure, Except.pure]

namespace Fixture

section Packing

variable {pack : Bytes → Bytes} (packer : Gzip.IsPacker pack) (path : String)
include packer

/-- A packed archive is unpacked. -/
theorem decode_packed (content : Bytes) :
    Blob.decode path (pack content) = .ok (.ofBytes content) := by
  have marked := packer.marked content
  have notZstd : ¬ Blob.zstdMagic <+: pack content := by
    intro other
    obtain ⟨rest, packed⟩ := marked
    rw [← packed] at other
    exact absurd (List.cons_prefix_cons.mp other).1 (by decide)
  rw [Blob.decode, if_neg, if_pos, packer.unpacked]
  · rwa [List.isPrefixOf_iff_prefix]
  · rwa [List.isPrefixOf_iff_prefix]

/-- A stored layer is opened as its archive, once it was found to match its digest. -/
theorem ImageFixture.openLayer_layerBlob (usesGzip : Bool) (entries : List LayerEntry) :
    Blob.openLayer path (some (.file (layerBlob pack usesGzip (archive entries)).content))
      (layerBlob pack usesGzip (archive entries)).mediaType
      (some (layerBlob pack usesGzip (archive entries)).digest) =
        .ok (.ofBytes (archive entries)) := by
  have stored (mediaType : String) (content : Bytes)
      (supported : Text.contains mediaType "zstd" = false) :
      Blob.openLayer path (some (.file content)) mediaType
        (some (StoredBlob.digestOf content)) = Blob.decode path content := by
    simp only [Blob.openLayer, supported, Bool.false_eq_true, if_false, Blob.verify_digestOf]
    rfl
  cases usesGzip with
  | true =>
    exact (stored "application/vnd.oci.image.layer.v1.tar+gzip" _ (by decide)).trans
      (decode_packed packer path _)
  | false =>
    exact (stored "application/vnd.oci.image.layer.v1.tar" _ (by decide)).trans
      (decode_archive path entries)

end Packing

end Fixture

end ImageAudit
