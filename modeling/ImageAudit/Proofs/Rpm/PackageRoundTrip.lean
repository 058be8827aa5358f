import ImageAudit.Proofs.Fixture.Package
import ImageAudit.Proofs.Rpm.FileList

/-! # Packages read back from their headers

A package that is described step by step is read back from its header as it was described: its
record, its files in order with all the bits of their modes and flags, and the directories of their
paths, each at its first place. Paths that are stored whole name no directories.
-/

namespace ImageAudit.Fixture.PackageFixture

open Rpm Fallible

def listedDirectories (package : PackageFixture) : List String :=
  if package.legacyFileNames = true ∨ package.files = [] then []
  else (package.files.map fun file => (splitPath file.path).1).eraseDups

section Numbers

theorem toInt_ofNat {index : Nat} (small : index < 0x80000000) :
    (UInt32.ofNat index).toInt32.toInt = index := by
  have fits : index % 2 ^ 32 = index := by omega
  rw [← Bytes.signed_toNat_uint32, UInt32.toNat_ofNat', fits, Bytes.signed]
  exact if_pos small

/-- The bits of a signed number are those that were written. -/
theorem ofInt_toInt32 (value : UInt32) : UInt32.ofInt value.toInt32.toInt = value := by
  have small : value.toNat < 0x100000000 := value.toNat_lt
  rw [← UInt32.toNat_inj, ← Bytes.signed_toNat_uint32, UInt32.ofInt, UInt32.toNat_ofNat',
    Bytes.signed]
  split <;> omega

/-- Of a mode read with its sign the low bits are kept. -/
theorem ofInt_toInt16_and (value : UInt16) :
    UInt32.ofInt value.toInt16.toInt &&& 0xffff = value.toUInt32 := by
  have small : value.toNat < 0x10000 := value.toNat_lt
  rw [← UInt32.toNat_inj, ← Bytes.signed_toNat_uint16, UInt32.toNat_and, UInt16.toNat_toUInt32]
  change _ &&& 2 ^ 16 - 1 = _
  rw [Nat.and_two_pow_sub_one_eq_mod, UInt32.ofInt, UInt32.toNat_ofNat', Bytes.signed]
  split <;> omega

theorem perFile_map (tag : String) (files : List FixtureFile) (value : FixtureFile → Int) :
    Header.perFile tag (files.map (·.path)).length (files.map value) = .ok (files.map value) := by
  rw [Header.perFile, if_pos (by rw [List.length_map, List.length_map])]

/-- A file has all the bits of its mode and flags. -/
theorem installedFile_of_signed (path : String) (mode : UInt16) (flags : UInt32) :
    Header.installedFile path mode.toInt16.toInt flags.toInt32.toInt =
      ⟨path, mode.toUInt32, ⟨flags⟩⟩ := by
  rw [Header.installedFile, ofInt_toInt16_and, ofInt_toInt32]

end Numbers

section Paths

variable {package : PackageFixture} (rooted : package.Rooted)
include rooted

/-- Each file is found again under the place of its directory. -/
private theorem joinPaths_directories (few : package.directories.length ≤ Header.maxStoreSize) :
    Header.joinPaths package.directories (package.files.map fun file => (splitPath file.path).2)
      ((package.files.map fun file =>
        UInt32.ofNat (package.directories.idxOf (splitPath file.path).1)).map
          fun index => index.toInt32.toInt) = .ok (package.files.map (·.path)) := by
  have same : ¬ ((package.files.map fun file =>
      UInt32.ofNat (package.directories.idxOf (splitPath file.path).1)).map
        fun index => index.toInt32.toInt).length ≠
      (package.files.map fun file => (splitPath file.path).2).length := by simp
  rw [Header.joinPaths, if_neg same, List.map_map, List.zip_map', mapM_eq_ok_iff,
    List.forall₂_map_left_iff, List.forall₂_map_right_iff, List.forall₂_same]
  intro file member
  have listed : (splitPath file.path).1 ∈ package.directories := by
    rw [directories_eq, List.mem_eraseDups]
    exact List.mem_map_of_mem member
  have inside := List.idxOf_lt_length_iff.mpr listed
  have small : package.directories.idxOf (splitPath file.path).1 < 0x80000000 := by
    simp only [Header.maxStoreSize] at few
    omega
  rw [Function.comp_apply, toInt_ofNat small]
  have path := Header.pathIn_ofNat (List.getElem?_idxOf listed) (splitPath file.path).2
  rw [splitPath_append (rooted file member)] at path
  exact path

private theorem noNull_splitPath (noNull : package.NoNull) {file : FixtureFile}
    (member : file ∈ package.files) :
    '\x00' ∉ (splitPath file.path).1.toList ∧ '\x00' ∉ (splitPath file.path).2.toList := by
  have whole := noNull.files file member
  rw [← splitPath_append (rooted file member), String.toList_append, List.mem_append, not_or]
    at whole
  exact whole

end Paths

section Reading

variable {package : PackageFixture} {header : Header} (keeps : header.Keeps package.fields)
  (noNull : package.NoNull)
include keeps noNull

theorem packageRecord_of_keeps : header.packageRecord = .ok package.record := by
  have look {tag : Int} (own : tag ∈ recordTags) := package.last?_fields_record own
  have name : header.string? Tag.name = .ok (some package.name) :=
    keeps.string? (look (by decide)) (by simpa using noNull.name)
  have version : header.string? Tag.version = .ok (some package.version) :=
    keeps.string? (look (by decide)) (by simpa using noNull.version)
  have release : header.string? Tag.release = .ok (some package.release) :=
    keeps.string? (look (by decide)) (by simpa using noNull.release)
  have vendor : header.string? Tag.vendor = .ok package.vendor :=
    keeps.string? (look (by decide)) noNull.vendor
  have arch : header.string? Tag.arch = .ok package.arch :=
    keeps.string? (look (by decide)) noNull.arch
  have epoch : header.integer? Tag.epoch = .ok (package.epoch.map Int32.toInt) := by
    rw [Header.integer?, keeps.integers?_int32 _ (look (by decide))]
    cases package.epoch <;> rfl
  have installTime : header.integer? Tag.installTime = .ok (some package.installTime.toInt) := by
    rw [Header.integer?, keeps.integers?_int32 (some [package.installTime.toUInt32])
      (look (by decide))]
    rfl
  simp only [Header.packageRecord, name, version, release, vendor, arch, epoch, installTime,
    Header.need, record]
  simp [bind, Except.bind, pure, Except.pure, Function.comp_def]

private theorem filePaths_of_whole (files : package.files ≠ [])
    (whole : package.legacyFileNames = true) :
    header.filePaths = .ok (package.files.map (·.path), []) := by
  have bases : header.strings? Tag.baseNames = .ok none :=
    keeps.strings? (last?_baseNames_of_whole files whole) (by simp)
  have paths : header.strings? Tag.oldFileNames = .ok (some (package.files.map (·.path))) := by
    refine keeps.strings? (last?_oldFileNames files whole) ?_
    rintro texts ⟨⟩ text member
    obtain ⟨file, inside, rfl⟩ := List.mem_map.mp member
    exact noNull.files file inside
  simp only [Header.filePaths, bases, paths]
  rfl

omit noNull in
private theorem filePaths_of_no_files (files : package.files = []) :
    header.filePaths = .ok ([], []) := by
  have absent {tag : Int} (own : tag ∈ fileTags) := last?_file_of_no_files files own
  have bases : header.strings? Tag.baseNames = .ok none :=
    keeps.strings? (absent (by decide)) (by simp)
  have paths : header.strings? Tag.oldFileNames = .ok none :=
    keeps.strings? (absent (by decide)) (by simp)
  have directories : header.has Tag.directoryNames = false := by
    rw [Header.has, keeps.entry?_eq_none (absent (by decide)), Option.isSome_none]
  have indexes : header.has Tag.directoryIndexes = false := by
    rw [Header.has, keeps.entry?_eq_none (absent (by decide)), Option.isSome_none]
  simp only [Header.filePaths, bases, paths, directories, indexes]
  rfl

variable (rooted : package.Rooted) (small : header.store.length ≤ Header.maxStoreSize)
include rooted small

private theorem filePaths_of_split (files : package.files ≠ [])
    (split : ¬ package.legacyFileNames = true) :
    header.filePaths = .ok (package.files.map (·.path), package.directories) := by
  have bases : header.strings? Tag.baseNames =
      .ok (some (package.files.map fun file => (splitPath file.path).2)) := by
    refine keeps.strings? (last?_baseNames files split) ?_
    rintro texts ⟨⟩ text member
    obtain ⟨file, inside, rfl⟩ := List.mem_map.mp member
    exact (noNull_splitPath rooted noNull inside).2
  have directories : header.strings? Tag.directoryNames = .ok (some package.directories) := by
    refine keeps.strings? (last?_directoryNames files split) ?_
    rintro texts ⟨⟩ text member
    rw [directories_eq, List.mem_eraseDups] at member
    obtain ⟨file, inside, rfl⟩ := List.mem_map.mp member
    exact (noNull_splitPath rooted noNull inside).1
  have indexes := keeps.integers?_int32 (some _) (last?_directoryIndexes files split)
  have few := keeps.length_le (last?_directoryNames files split)
  have joined := joinPaths_directories rooted (Nat.le_trans few small)
  simp only [Header.filePaths, bases, directories, indexes, joined, Header.need, Option.map_some,
    ok_bind]
  rfl

/-- The paths of all files in order, and the directories where they are stored apart. -/
theorem filePaths_of_keeps :
    header.filePaths = .ok (package.files.map (·.path), package.listedDirectories) := by
  by_cases files : package.files = []
  · rw [filePaths_of_no_files keeps files, listedDirectories, if_pos (Or.inr files), files,
      List.map_nil]
  by_cases whole : package.legacyFileNames = true
  · rw [filePaths_of_whole keeps noNull files whole, listedDirectories, if_pos (Or.inl whole)]
  · have split : ¬ (package.legacyFileNames = true ∨ package.files = []) :=
      not_or.mpr ⟨whole, files⟩
    rw [filePaths_of_split keeps noNull rooted small files whole, listedDirectories, if_neg split,
      directories_eq]

/-- A header that keeps the fields of a package describes it. -/
theorem package_of_keeps :
    header.package = .ok {
      record := package.record
      files := package.files.map fun file => ⟨file.path, file.mode.toUInt32, file.flags⟩
      dirNames := package.listedDirectories } := by
  have modes := keeps.integers?_int16 _ package.last?_fileModes
  have flags := keeps.integers?_int32 _ package.last?_fileFlags
  have paths := filePaths_of_keeps keeps noNull rooted small
  have record := packageRecord_of_keeps keeps noNull
  simp only [Header.package, record, paths, modes, flags, ok_bind, getD_eachFile?, perFile_map]
  rw [List.zip_map', List.zip_map', List.map_map]
  simp only [Function.comp_def, installedFile_of_signed]
  rfl

end Reading

/-- A described package is read back as it was described. -/
theorem parsePackage_header (package : PackageFixture) (described : Described package)
    (noNull : package.NoNull)
    (small : (HeaderBuilder.ofFields package.fields).closedStore.length ≤ Header.maxStoreSize) :
    parsePackage package.header = .ok {
      record := package.record
      files := package.files.map fun file => ⟨file.path, file.mode.toUInt32, file.flags⟩
      dirNames := package.listedDirectories } ∧
    ∀ file ∈ package.files, IsDirectoryOf (splitPath file.path).1 file.path := by
  have within := package.map_tag_fields_sublist
  have few : package.fields.length < Header.maxEntries := by
    have := within.length_le
    rw [List.length_map] at this
    exact Nat.lt_of_le_of_lt this (by decide)
  have tags : ∀ field ∈ package.fields, -0x80000000 ≤ field.tag ∧ field.tag < 0x80000000 ∧
      ¬ (61 ≤ field.tag ∧ field.tag ≤ 63) := by
    have all : ∀ tag ∈ recordTags ++ fileTags, -0x80000000 ≤ tag ∧ tag < 0x80000000 ∧
        ¬ (61 ≤ tag ∧ tag ≤ 63) := by decide
    exact fun field member => all _ (within.subset (List.mem_map_of_mem member))
  obtain ⟨header, parsed, keeps, stored⟩ :=
    Header.exists_keeps package.hasValues_fields tags few small
  constructor
  · rw [parsePackage, PackageFixture.header, parsed, ok_bind,
      package_of_keeps keeps noNull described.rooted stored]
  · exact fun file member => isDirectoryOf_splitPath (described.rooted file member)

section Sample

/-- A package from before 1970, two of whose files share a directory; a third has no last
component. -/
def samplePackage : PackageFixture :=
  new "p" "1.0" "2" (some "noarch") |>.add .noArch |>.add (.vendor none) |>.add (.epoch (-1))
    |>.add (.installTime (-2)) |>.add (.regular "usr/bin/a" 0o755 .config)
    |>.add (.directory "/usr/") |>.add (.regular "//usr/bin/b" 0o4711 ⟨0x80000001⟩)

theorem described_samplePackage : Described samplePackage :=
  Described.new "p" "1.0" "2" "noarch" |>.add _ |>.add _ |>.add _ |>.add _ |>.add _ |>.add _
    |>.add _

/-- Modes and flags keep their highest bits, and the shared directory is named once. -/
theorem parsePackage_header_sample :
    Described samplePackage ∧ samplePackage.NoNull ∧
      (HeaderBuilder.ofFields samplePackage.fields).closedStore.length ≤ Header.maxStoreSize ∧
      parsePackage samplePackage.header = .ok {
        record := ⟨"p", "1.0", "2", "", some (-1), "", -2⟩
        files := [⟨"/usr/bin/a", 0o100755, .config⟩, ⟨"/usr/", 0o40755, .empty⟩,
          ⟨"/usr/bin/b", 0o104711, ⟨0x80000001⟩⟩]
        dirNames := ["/usr/bin/", "/usr/"] } := by
  have noNull : samplePackage.NoNull :=
    ⟨by decide, by decide, by decide, by decide, by decide, by decide⟩
  have small : (HeaderBuilder.ofFields samplePackage.fields).closedStore.length ≤
      Header.maxStoreSize := by decide +kernel
  have read := (parsePackage_header samplePackage described_samplePackage noNull small).1
  refine ⟨described_samplePackage, noNull, small, ?_⟩
  rw [read]
  cbv

end Sample

end ImageAudit.Fixture.PackageFixture
