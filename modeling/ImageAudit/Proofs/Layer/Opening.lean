import ImageAudit.Image.Layout
import ImageAudit.Proofs.Fallible
import ImageAudit.Proofs.Gzip.Members
import ImageAudit.Proofs.Text.Occurrence

/-! # Which blobs are opened

A blob is opened exactly when it is a file whose media type and first bytes are supported and whose
content has the digest that it is to have. It is read as it is, or unpacked when its first bytes are
those of gzip, whatever its media type says. Otherwise it fails for the first of its faults, in a
fixed order, and what is told is that the image cannot be accessed.
-/

namespace ImageAudit

namespace Text

theorem asciiLower_eq_toLower (c : Char) : asciiLower c = c.toLower := by
  have letter : ('A' ≤ c && c ≤ 'Z') = true ↔ c.val ≥ 'A'.val ∧ c.val ≤ 'Z'.val := by
    rw [Bool.and_eq_true, decide_eq_true_iff, decide_eq_true_iff]
    rfl
  unfold asciiLower Char.toLower
  split
  · rename_i upper
    have last : c.toNat ≤ 90 := (letter.mp upper).2
    rw [dif_pos (letter.mp upper), ← Char.ofNat_toNat (Char.mk _ _)]
    apply congrArg Char.ofNat
    change c.toNat + 32 = (c.val + 32).toNat
    rw [UInt32.toNat_add]
    change c.toNat + 32 = (c.toNat + 32) % 0x100000000
    omega
  · rename_i other
    rw [dif_neg fun upper => other (letter.mpr upper)]

theorem eqIgnoringCase_iff (a b : String) : eqIgnoringCase a b = true ↔ a.toLower = b.toLower := by
  have lower : asciiLower = Char.toLower := funext asciiLower_eq_toLower
  rw [eqIgnoringCase, lower, decide_eq_true_iff, ← String.toList_map, ← String.toList_map,
    String.toList_inj]
  rfl

end Text

namespace Digest

/-- The algorithm that a digest names, and the value: what stands before its first colon and behind
it. A digest without a colon is a value of `sha256`. -/
inductive Names : String → String → String → Prop
  | tagged {algorithm value : String} (noColon : ':' ∉ algorithm.toList) :
      Names (algorithm ++ ":" ++ value) algorithm value
  | bare {value : String} (noColon : ':' ∉ value.toList) : Names value "sha256" value

theorem Names.split_eq {digest algorithm value : String} (names : Names digest algorithm value) :
    split digest = (algorithm, value) := by
  have passes {text : List Char} (noColon : ':' ∉ text) : ∀ c ∈ text, (c != ':') = true :=
    fun c member => bne_iff_ne.mpr (ne_of_mem_of_not_mem member noColon)
  cases names with
  | tagged noColon =>
    have cut : (algorithm ++ ":" ++ value).toList = algorithm.toList ++ ':' :: value.toList := by
      simp
    rw [split, Text.splitFirst?, cut, List.dropWhile_append_of_pos (passes noColon),
      List.takeWhile_append_of_pos (passes noColon), List.dropWhile_cons_of_neg (by decide),
      List.takeWhile_cons_of_neg (by decide)]
    simp
  | bare noColon =>
    rw [split, Text.splitFirst?, List.dropWhile_eq_nil_iff.mpr (passes noColon)]
    rfl

theorem exists_names (digest : String) : ∃ algorithm value, Names digest algorithm value := by
  by_cases colon : ':' ∈ digest.toList
  · obtain ⟨before, after, cut, noColon⟩ := List.eq_append_cons_of_mem colon
    have whole : digest = String.ofList before ++ ":" ++ String.ofList after := by
      apply String.ext
      simp [cut]
    rw [whole]
    exact ⟨_, _, .tagged (by rwa [String.toList_ofList])⟩
  · exact ⟨_, _, .bare colon⟩

end Digest

/-- The place of a fault in the order in which faults are looked for. -/
def BlobFault.stage : BlobFault → Nat
  | unsupportedMediaType .. => 0
  | notFound .. => 1
  | digestAlgorithm .. => 2
  | notHashed .. => 3
  | digestMismatch .. => 4
  | unreadable .. => 5
  | zstdContent .. => 6

namespace Blob

/-- The content has the digest that it is to have, if it is to have one. -/
def Matches (content : Bytes) (expected : Option String) : Prop :=
  ∀ digest, expected = some digest → ∃ value, Digest.Names digest "sha256" value ∧
    value.toLower = (Digest.sha256 content).toLower

/-- The content is supported and matches. -/
structure Accepts (content : Bytes) (mediaType : String) (expected : Option String) : Prop where
  mediaType : ¬ "zstd".toList <:+: mediaType.toList
  firstBytes : ¬ zstdMagic <+: content
  digest : Matches content expected

/-- The archive that a content holds: it is unpacked when it begins as a gzip file does. -/
inductive Holds (content : Bytes) : ByteStream → Prop
  | plain (other : ¬ Gzip.magic <+: content) : Holds content (.ofBytes content)
  | packed {stream : ByteStream} (begins : Gzip.magic <+: content)
      (unpacked : Gzip.Unpacks content.length content stream) : Holds content stream

/-- The faults of what lies at a path. -/
inductive Has (path : String) (node : Option FileNode) (mediaType : String)
    (expected : Option String) : BlobFault → Prop
  | unsupportedMediaType (named : "zstd".toList <:+: mediaType.toList) :
      Has path node mediaType expected (.unsupportedMediaType mediaType path)
  | notFound (missing : node = none) : Has path node mediaType expected (.notFound path)
  | digestAlgorithm {digest algorithm value : String} (expects : expected = some digest)
      (names : Digest.Names digest algorithm value) (other : algorithm ≠ "sha256") :
      Has path node mediaType expected (.digestAlgorithm algorithm path)
  | notHashed {digest : String} (directory : node = some .directory)
      (expects : expected = some digest) :
      Has path node mediaType expected (.notHashed path PathFault.isDirectory.message)
  | digestMismatch {content : Bytes} {digest value : String} (file : node = some (.file content))
      (expects : expected = some digest) (names : Digest.Names digest "sha256" value)
      (differs : value.toLower ≠ (Digest.sha256 content).toLower) :
      Has path node mediaType expected (.digestMismatch path digest (Digest.sha256 content))
  | unreadable (directory : node = some .directory) :
      Has path node mediaType expected (.unreadable path PathFault.isDirectory.message)
  | zstdContent {content : Bytes} (file : node = some (.file content))
      (begins : zstdMagic <+: content) : Has path node mediaType expected (.zstdContent path)

/-- The fault is there, and none that is looked for earlier. -/
structure IsFirst (path : String) (node : Option FileNode) (mediaType : String)
    (expected : Option String) (fault : BlobFault) : Prop where
  has : Has path node mediaType expected fault
  earlier : ∀ other, Has path node mediaType expected other → fault.stage ≤ other.stage

section Opening

variable {path mediaType digest algorithm value : String} {node : Option FileNode}
  {expected : Option String} {content : Bytes} {stream : ByteStream} {fault : BlobFault}

theorem openLayer_of_named (named : "zstd".toList <:+: mediaType.toList) :
    openLayer path node mediaType expected = .error (.unsupportedMediaType mediaType path) := by
  unfold openLayer
  rw [if_pos ((Text.contains_iff mediaType "zstd").mpr named)]

theorem openLayer_none (supported : ¬ "zstd".toList <:+: mediaType.toList) :
    openLayer path none mediaType expected = .error (.notFound path) := by
  have absent := mt (Text.contains_iff mediaType "zstd").mp supported
  unfold openLayer
  rw [if_neg absent]

/-- What lies at the path is verified, and then read. -/
theorem openLayer_some (supported : ¬ "zstd".toList <:+: mediaType.toList) (node : FileNode) :
    openLayer path (some node) mediaType expected =
      (match expected with
        | none => .ok ()
        | some digest => verify path node digest) >>= fun _ =>
      match node with
        | .directory => .error (.unreadable path PathFault.isDirectory.message)
        | .file content => decode path content := by
  have absent := mt (Text.contains_iff mediaType "zstd").mp supported
  unfold openLayer
  rw [if_neg absent]
  cases expected with
  | none => rfl
  | some digest => cases node <;> rfl

theorem verify_of_other (names : Digest.Names digest algorithm value) (other : algorithm ≠ "sha256")
    (node : FileNode) : verify path node digest = .error (.digestAlgorithm algorithm path) := by
  simp only [verify, names.split_eq, if_pos other]
  rfl

theorem verify_directory (names : Digest.Names digest "sha256" value) :
    verify path .directory digest =
      .error (.notHashed path PathFault.isDirectory.message) := by
  simp only [verify, names.split_eq]
  rfl

theorem verify_file (names : Digest.Names digest "sha256" value) :
    verify path (.file content) digest =
      if value.toLower = (Digest.sha256 content).toLower then .ok ()
      else .error (.digestMismatch path digest (Digest.sha256 content)) := by
  have compare := Text.eqIgnoringCase_iff (Digest.sha256 content) value
  simp only [verify, names.split_eq, hash, Fallible.ok_bind]
  by_cases same : value.toLower = (Digest.sha256 content).toLower
  · rw [if_pos same, compare.mpr same.symm]
    rfl
  · have differs : Text.eqIgnoringCase (Digest.sha256 content) value = false :=
      Bool.eq_false_iff.mpr fun equal => same (compare.mp equal).symm
    rw [if_neg same, differs]
    rfl

theorem decode_eq_ok_iff : decode path content = .ok stream ↔
    ¬ zstdMagic <+: content ∧ Holds content stream := by
  unfold decode
  simp only [List.isPrefixOf_iff_prefix]
  split_ifs with zstd gzip
  · exact ⟨nofun, fun both => absurd zstd both.1⟩
  · constructor
    · intro opened
      exact ⟨zstd, .packed gzip (Gzip.unpacks_iff.mpr (Except.ok.inj opened))⟩
    · rintro ⟨-, other | ⟨-, unpacked⟩⟩
      · exact absurd gzip other
      · rw [Gzip.unpacks_iff.mp unpacked]
  · constructor
    · intro opened
      cases opened
      exact ⟨zstd, .plain gzip⟩
    · rintro ⟨-, - | ⟨begins, -⟩⟩
      · rfl
      · exact absurd begins gzip

theorem exists_holds (content : Bytes) : ∃ stream, Holds content stream := by
  by_cases begins : Gzip.magic <+: content
  · exact ⟨_, .packed begins (Gzip.unpacks_iff.mpr rfl)⟩
  · exact ⟨_, .plain begins⟩

theorem exists_isFirst (has : Has path node mediaType expected fault) :
    ∃ first, IsFirst path node mediaType expected first := by
  induction stands : fault.stage using Nat.strongRecOn generalizing fault with
  | ind stage ih =>
    by_cases sooner : ∃ other, Has path node mediaType expected other ∧ other.stage < stage
    · obtain ⟨other, has', less⟩ := sooner
      exact ih other.stage less has' rfl
    · refine ⟨fault, has, fun other has' => Nat.le_of_not_lt fun less => ?_⟩
      exact sooner ⟨other, has', stands ▸ less⟩

theorem openLayer_of_matches (supported : ¬ "zstd".toList <:+: mediaType.toList)
    (same : Matches content expected) :
    openLayer path (some (.file content)) mediaType expected = decode path content := by
  rw [openLayer_some supported]
  cases expects : expected with
  | none => rfl
  | some digest =>
    obtain ⟨value, names, same⟩ := same digest expects
    dsimp only
    rw [verify_file names, if_pos same]
    rfl

/-- The digest is one of `sha256` where its algorithm is not at fault. -/
theorem names_sha256_of_sound (expects : expected = some digest)
    (sound : ∀ fault, Has path node mediaType expected fault → fault.stage ≠ 2) :
    ∃ value, Digest.Names digest "sha256" value := by
  obtain ⟨algorithm, value, names⟩ := Digest.exists_names digest
  by_cases same : algorithm = "sha256"
  · exact ⟨value, same ▸ names⟩
  · exact absurd rfl (sound _ (.digestAlgorithm expects names same))

theorem matches_of_sound (file : node = some (.file content))
    (sound : ∀ fault, Has path node mediaType expected fault → 4 < fault.stage) :
    Matches content expected := by
  intro digest expects
  obtain ⟨value, names⟩ :=
    names_sha256_of_sound expects fun fault has =>
      Nat.ne_of_gt (Nat.lt_trans (by decide) (sound fault has))
  refine ⟨value, names, ?_⟩
  by_contra differs
  exact absurd (sound _ (.digestMismatch file expects names differs)) (Nat.lt_irrefl 4)

/-- The first fault is the one that is told. -/
theorem IsFirst.openLayer_eq (first : IsFirst path node mediaType expected fault) :
    openLayer path node mediaType expected = .error fault := by
  have supported (later : 0 < fault.stage) : ¬ "zstd".toList <:+: mediaType.toList := by
    intro named
    exact absurd (first.earlier _ (.unsupportedMediaType named)) (Nat.not_le_of_lt later)
  obtain ⟨has, earlier⟩ := first
  cases has with
  | unsupportedMediaType named => exact openLayer_of_named named
  | notFound missing =>
    rw [missing]
    exact openLayer_none (supported (Nat.succ_pos 0))
  | digestAlgorithm expects names other =>
    cases node with
    | none => exact absurd (earlier _ (.notFound rfl)) (Nat.not_succ_le_self 1)
    | some node =>
      rw [openLayer_some (supported (Nat.succ_pos 1)), expects]
      dsimp only
      rw [verify_of_other names other]
      rfl
  | notHashed directory expects =>
    obtain ⟨value, names⟩ :=
      names_sha256_of_sound expects fun other has => Nat.ne_of_gt (earlier other has)
    rw [directory, openLayer_some (supported (Nat.succ_pos 2)), expects]
    dsimp only
    rw [verify_directory names]
    rfl
  | digestMismatch file expects names differs =>
    rw [file, openLayer_some (supported (Nat.succ_pos 3)), expects]
    dsimp only
    rw [verify_file names, if_neg differs]
    rfl
  | unreadable directory =>
    rw [directory, openLayer_some (supported (Nat.succ_pos 4))]
    cases expects : expected with
    | none => rfl
    | some digest =>
      have sooner : 3 < 5 := by decide
      exact absurd (earlier _ (.notHashed directory expects)) (Nat.not_le_of_lt sooner)
  | zstdContent file begins =>
    have same := matches_of_sound file fun other has => Nat.lt_of_succ_lt (earlier other has)
    rw [file, openLayer_of_matches (supported (Nat.succ_pos 5)) same, decode, if_pos]
    exact List.isPrefixOf_iff_prefix.mpr begins

/-- Without any fault there is a file, and it is accepted. -/
theorem accepts_of_sound (sound : ∀ fault, ¬ Has path node mediaType expected fault) :
    ∃ content, node = some (.file content) ∧ Accepts content mediaType expected := by
  rcases present : node with _ | content | _
  · exact absurd (.notFound present) (sound _)
  · refine ⟨content, rfl, ⟨?_, ?_, ?_⟩⟩
    · exact fun named => sound _ (.unsupportedMediaType named)
    · exact fun begins => sound _ (.zstdContent present begins)
    · exact matches_of_sound present fun fault has => absurd has (sound fault)
  · exact absurd (.unreadable present) (sound _)

/-- There is a file that is accepted, or a first fault. -/
theorem accepts_or_isFirst (path : String) (node : Option FileNode) (mediaType : String)
    (expected : Option String) :
    (∃ content, node = some (.file content) ∧ Accepts content mediaType expected) ∨
      ∃ fault, IsFirst path node mediaType expected fault := by
  by_cases sound : ∀ fault, ¬ Has path node mediaType expected fault
  · exact .inl (accepts_of_sound sound)
  · obtain ⟨fault, has⟩ := not_forall_not.mp sound
    exact .inr (exists_isFirst has)

theorem openLayer_eq_ok_iff : openLayer path node mediaType expected = .ok stream ↔
    ∃ content, node = some (.file content) ∧ Accepts content mediaType expected ∧
      Holds content stream := by
  constructor
  · intro opened
    rcases accepts_or_isFirst path node mediaType expected with ⟨content, rfl, accepts⟩ |
      ⟨fault, first⟩
    · rw [openLayer_of_matches accepts.mediaType accepts.digest] at opened
      exact ⟨content, rfl, accepts, (decode_eq_ok_iff.mp opened).2⟩
    · rw [first.openLayer_eq] at opened
      cases opened
  · rintro ⟨content, rfl, accepts, holds⟩
    rw [openLayer_of_matches accepts.mediaType accepts.digest]
    exact decode_eq_ok_iff.mpr ⟨accepts.firstBytes, holds⟩

theorem openLayer_eq_error_iff : openLayer path node mediaType expected = .error fault ↔
    IsFirst path node mediaType expected fault := by
  constructor
  · intro failed
    rcases accepts_or_isFirst path node mediaType expected with ⟨content, file, accepts⟩ |
      ⟨other, first⟩
    · obtain ⟨stream, holds⟩ := exists_holds content
      rw [openLayer_eq_ok_iff.mpr ⟨content, file, accepts, holds⟩] at failed
      cases failed
    · rw [first.openLayer_eq] at failed
      cases failed
      exact first
  · exact IsFirst.openLayer_eq

end Opening

/-- What lies at a path is opened exactly when it is a file that is accepted, and then as the archive
that the file holds. Otherwise it fails for its first fault, and where it is a layer of an image, the
image is said not to be accessible. -/
theorem openLayer_outcome (path : String) (node : Option FileNode) (mediaType : String)
    (expected : Option String) :
    ((∃ stream, openLayer path node mediaType expected = .ok stream) ↔
      ∃ content, node = some (.file content) ∧ Accepts content mediaType expected) ∧
    (∀ stream, openLayer path node mediaType expected = .ok stream →
      ∃ content, node = some (.file content) ∧ Holds content stream) ∧
    (∀ fault, openLayer path node mediaType expected = .error fault ↔
      IsFirst path node mediaType expected fault) ∧
    ∀ (image : ImageLayout) (files : FileTree) (layer : LayerDescriptor) (failure : Failure),
      image.openLayer files layer = .error failure →
        ∃ fault, failure = .imageAccess fault.message ∧
          openLayer (ImageLayout.blobPath image.root layer.digest)
            (files.find? (ImageLayout.blobPath image.root layer.digest)) layer.mediaType
            (if image.verifiesDigests then some layer.digest else none) = .error fault := by
  refine ⟨⟨?_, ?_⟩, ?_, fun fault => openLayer_eq_error_iff, ?_⟩
  · rintro ⟨stream, opened⟩
    obtain ⟨content, file, accepts, -⟩ := openLayer_eq_ok_iff.mp opened
    exact ⟨content, file, accepts⟩
  · rintro ⟨content, file, accepts⟩
    obtain ⟨stream, holds⟩ := exists_holds content
    exact ⟨stream, openLayer_eq_ok_iff.mpr ⟨content, file, accepts, holds⟩⟩
  · intro stream opened
    obtain ⟨content, file, -, holds⟩ := openLayer_eq_ok_iff.mp opened
    exact ⟨content, file, holds⟩
  · intro image files layer failure failed
    obtain ⟨fault, failed, told⟩ := Fallible.mapError_eq_error_iff.mp failed
    exact ⟨fault, told.symm, failed⟩

end Blob

end ImageAudit
