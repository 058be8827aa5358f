import ImageAudit.Proofs.Rpm.FileList
import Mathlib
import ImageAudit.Proofs.Rpm.HeaderIndex

/-! # File lists whose parts agree

The paths of a package are kept in one of three layouts: as directories and base names, which an
index for each file joins; whole; or not at all. The modes and the flags are there for each file or
for none. A package whose record can be read is decoded exactly when its header keeps its file list
so, and then each file has what stands at its position in each part.
-/

namespace ImageAudit.Rpm.Header

open Fallible

/-- What a header says about the package itself can be read, and names it. -/
structure DecodesRecord (header : Header) : Prop where
  name : ∃ name, header.string? Tag.name = .ok (some name)
  texts : ∀ tag ∈ [Tag.version, Tag.release, Tag.arch, Tag.vendor],
    ∃ text, header.string? tag = .ok text
  numbers : ∀ tag ∈ [Tag.epoch, Tag.installTime], ∃ number, header.integer? tag = .ok number

/-- The header keeps these paths, and these directories apart from them. -/
inductive KeepsPaths (header : Header) : List String → List String → Prop where
  /-- As directories and base names. -/
  | split {directories baseNames : List String} {indexes : List Int}
      (bases : header.strings? Tag.baseNames = .ok (some baseNames))
      (names : header.strings? Tag.directoryNames = .ok (some directories))
      (places : header.integers? Tag.directoryIndexes = .ok (some indexes))
      (one : indexes.length = baseNames.length)
      (inside : ∀ index ∈ indexes, 0 ≤ index ∧ index < directories.length) :
      KeepsPaths header (List.zipWith (fun baseName index =>
        directories.getD index.toNat "" ++ baseName) baseNames indexes) directories
  | whole {paths : List String} (noBases : header.has Tag.baseNames = false)
      (olds : header.strings? Tag.oldFileNames = .ok (some paths)) : KeepsPaths header paths []
  /-- There are no files. -/
  | none (noBases : header.has Tag.baseNames = false) (noOlds : header.has Tag.oldFileNames = false)
      (noNames : header.has Tag.directoryNames = false)
      (noPlaces : header.has Tag.directoryIndexes = false) : KeepsPaths header [] []

/-- The header keeps these numbers under a tag: one for each of so many files, or none at all. -/
def KeepsNumbers (header : Header) (tag : Int) (files : Nat) (numbers : List Int) : Prop :=
  (header.has tag = false ∧ numbers = []) ∨
    (header.integers? tag = .ok (some numbers) ∧ (numbers = [] ∨ numbers.length = files))

def lowBits (count : Nat) (number : Int) : UInt32 := UInt32.ofNat (number % 2 ^ count).toNat

section Absent

variable {header : Header} {tag : Int}

theorem strings?_eq_none_iff : header.strings? tag = .ok none ↔ header.has tag = false := by
  rw [has, strings?]
  cases header.entry? tag with
  | none => simp
  | some entry =>
    dsimp only
    cases entry.type with
    | stringArray | i18nString => cases header.readStrings entry entry.count <;> simp [Except.map]
    | string => cases header.readStrings entry 1 <;> simp [Except.map]
    | _ => simp

theorem integers?_eq_none_iff : header.integers? tag = .ok none ↔ header.has tag = false := by
  rw [has, integers?]
  cases header.entry? tag with
  | none => simp
  | some entry =>
    dsimp only
    split
    · simp
    · split <;> simp

end Absent

section Parts

variable {directories baseNames paths : List String} {indexes : List Int}

theorem pathIn_eq_ok_iff {baseName path : String} {index : Int} :
    pathIn directories.toArray baseName index = .ok path ↔
      (0 ≤ index ∧ index < directories.length) ∧
        path = directories.getD index.toNat "" ++ baseName := by
  rw [pathIn, List.getElem?_toArray, List.getD_eq_getElem?_getD]
  by_cases negative : index < 0
  · rw [if_pos negative]
    exact iff_of_false (by simp) fun joined => absurd joined.1.1 (Int.not_le.mpr negative)
  · rw [if_neg negative]
    by_cases inside : index.toNat < directories.length
    · rw [List.getElem?_eq_getElem inside]
      simp only [Except.ok.injEq, Option.getD_some]
      constructor
      · rintro rfl
        exact ⟨by omega, rfl⟩
      · exact fun joined => joined.2.symm
    · rw [List.getElem?_eq_none (Nat.not_lt.mp inside)]
      exact iff_of_false (by simp) fun joined => absurd joined.1.2 (by omega)

theorem joinPaths_eq_ok_iff : joinPaths directories baseNames indexes = .ok paths ↔
    indexes.length = baseNames.length ∧
      (∀ index ∈ indexes, 0 ≤ index ∧ index < directories.length) ∧
      paths = List.zipWith (fun baseName index => directories.getD index.toNat "" ++ baseName)
        baseNames indexes := by
  rw [joinPaths]
  by_cases one : indexes.length = baseNames.length
  · rw [if_neg (not_not_intro one), mapM_eq_ok_iff_map fun _ _ => pathIn_eq_ok_iff,
      List.map_zip_eq_zipWith]
    have seconds : (baseNames.zip indexes).map Prod.snd = indexes :=
      List.map_snd_zip (Nat.le_of_eq one)
    have within : (∀ item ∈ baseNames.zip indexes, 0 ≤ item.2 ∧ item.2 < directories.length) ↔
        ∀ index ∈ indexes, 0 ≤ index ∧ index < directories.length := by
      conv_rhs => rw [← seconds]
      rw [List.forall_mem_map]
    rw [within]
    exact (and_iff_right one).symm
  · rw [if_pos one]
    exact ⟨nofun, fun joined => absurd joined.1 one⟩

theorem perFile_eq_ok_iff {name : String} {files : Nat} {values found : List Int} :
    perFile name files values = .ok found ↔ (values = [] ∨ values.length = files) ∧
      found = (List.range files).map fun position => values.getD position 0 := by
  rw [perFile]
  by_cases whole : values.length = files
  · have same : (List.range files).map (fun position => values.getD position 0) = values := by
      subst whole
      refine List.ext_getElem (by simp) fun position _ inside => ?_
      simp [inside]
    rw [if_pos whole, same, Except.ok.injEq]
    exact ⟨fun equal => ⟨.inr whole, equal.symm⟩, fun both => both.2.symm⟩
  · rw [if_neg whole]
    by_cases empty : values = []
    · have zeros : (List.range files).map (fun position => values.getD position 0) =
          List.replicate files 0 := by
        simp [empty, List.map_const']
      rw [if_pos empty, zeros, Except.ok.injEq]
      exact ⟨fun equal => ⟨.inl empty, equal.symm⟩, fun both => both.2.symm⟩
    · rw [if_neg empty]
      exact ⟨nofun, fun both => (both.1.elim empty whole).elim⟩

theorem installedFile_eq (path : String) (mode flags : Int) :
    installedFile path mode flags = ⟨path, lowBits 16 mode, ⟨lowBits 32 flags⟩⟩ := by
  have low : UInt32.ofInt mode &&& 0xffff = lowBits 16 mode := by
    rw [← UInt32.toNat_inj, UInt32.toNat_and, lowBits, UInt32.ofInt, UInt32.toNat_ofNat',
      UInt32.toNat_ofNat']
    change _ &&& 2 ^ 16 - 1 = _
    rw [Nat.and_two_pow_sub_one_eq_mod]
    omega
  rw [installedFile, low]
  rfl

end Parts

section Decoding

variable {header : Header}

theorem need_eq_ok_iff {α : Type} {name : String} {value? : Option α} {value : α} :
    need name value? = .ok value ↔ value? = some value := by
  cases value? <;> simp [need]

theorem KeepsPaths.filePaths {paths directories : List String}
    (keeps : header.KeepsPaths paths directories) :
    header.filePaths = .ok (paths, directories) := by
  cases keeps with
  | split bases names places one inside =>
    have joined := joinPaths_eq_ok_iff.mpr ⟨one, inside, rfl⟩
    simp only [Header.filePaths, bases, names, places, need, joined, ok_bind]
    rfl
  | whole noBases olds =>
    simp only [Header.filePaths, strings?_eq_none_iff.mpr noBases, olds, ok_bind]
    rfl
  | none noBases noOlds noNames noPlaces =>
    simp only [Header.filePaths, strings?_eq_none_iff.mpr noBases,
      strings?_eq_none_iff.mpr noOlds, noNames, noPlaces, ok_bind]
    rfl

theorem keepsPaths_of_filePaths {paths directories : List String}
    (read : header.filePaths = .ok (paths, directories)) : header.KeepsPaths paths directories := by
  obtain ⟨bases?, bases, read⟩ := bind_eq_ok_iff.mp read
  cases bases? with
  | some baseNames =>
    simp only [bind_eq_ok_iff, need_eq_ok_iff] at read
    obtain ⟨_, names, directories, rfl, _, places, indexes, rfl, joined, joins, same⟩ := read
    cases same
    obtain ⟨one, inside, rfl⟩ := joinPaths_eq_ok_iff.mp joins
    exact .split bases names places one inside
  | none =>
    have noBases := strings?_eq_none_iff.mp bases
    obtain ⟨olds?, olds, read⟩ := bind_eq_ok_iff.mp read
    cases olds? with
    | some whole =>
      cases read
      exact .whole noBases olds
    | none =>
      dsimp only at read
      split at read
      · cases read
      · rename_i neither
        obtain ⟨noNames, noPlaces⟩ : header.has Tag.directoryNames = false ∧
            header.has Tag.directoryIndexes = false := by simpa using neither
        cases read
        exact .none noBases (strings?_eq_none_iff.mp olds) noNames noPlaces

theorem DecodesRecord.packageRecord (decodes : header.DecodesRecord) :
    ∃ record, header.packageRecord = .ok record := by
  obtain ⟨⟨name, named⟩, texts, numbers⟩ := decodes
  simp only [List.forall_mem_cons] at texts numbers
  obtain ⟨⟨version, version'⟩, ⟨release, release'⟩, ⟨arch, arch'⟩, ⟨vendor, vendor'⟩, -⟩ := texts
  obtain ⟨⟨epoch, epoch'⟩, ⟨installTime, installTime'⟩, -⟩ := numbers
  simp only [Header.packageRecord, named, version', release', arch', vendor', epoch', installTime',
    need, ok_bind]
  exact ⟨_, rfl⟩

/-- The numbers that a header keeps for so many files, none where the tag is absent. -/
theorem keepsNumbers_iff {tag : Int} {files : Nat} {numbers : List Int} :
    header.KeepsNumbers tag files numbers ↔ ∃ values?, header.integers? tag = .ok values? ∧
      values?.getD [] = numbers ∧ (numbers = [] ∨ numbers.length = files) := by
  constructor
  · rintro (⟨absent, rfl⟩ | ⟨read, long⟩)
    · exact ⟨none, integers?_eq_none_iff.mpr absent, rfl, .inl rfl⟩
    · exact ⟨some numbers, read, rfl, long⟩
  · rintro ⟨values?, read, rfl, long⟩
    cases values? with
    | none => exact .inl ⟨integers?_eq_none_iff.mp read, rfl⟩
    | some values => exact .inr ⟨read, long⟩

/-- The files with these paths, modes and flags, each with what stands at its position. -/
def filesOf (paths : List String) (modes flags : List Int) : List InstalledFile :=
  paths.mapIdx fun position path =>
    ⟨path, lowBits 16 (modes.getD position 0), ⟨lowBits 32 (flags.getD position 0)⟩⟩

theorem package_eq_ok_iff {record : PackageRecord} (named : header.packageRecord = .ok record)
    {package : InstalledPackage} : header.package = .ok package ↔
      ∃ paths directories modes flags, header.KeepsPaths paths directories ∧
        header.KeepsNumbers Tag.fileModes paths.length modes ∧
        header.KeepsNumbers Tag.fileFlags paths.length flags ∧
        package = ⟨record, filesOf paths modes flags, directories⟩ := by
  have files (paths : List String) (modes flags : List Int) :
      (paths.zip (((List.range paths.length).map fun position => modes.getD position 0).zip
        ((List.range paths.length).map fun position => flags.getD position 0))).map
          (fun file => installedFile file.1 file.2.1 file.2.2) =
        filesOf paths modes flags := by
    refine List.ext_getElem (by simp [filesOf]) fun position _ _ => ?_
    simp [filesOf, installedFile_eq]
  simp only [Header.package, named, ok_bind, bind_eq_ok_iff, perFile_eq_ok_iff]
  constructor
  · rintro ⟨⟨paths, directories⟩, read, modes?, modes, flags?, flags, _, ⟨long, rfl⟩, _,
      ⟨long', rfl⟩, same⟩
    cases same
    refine ⟨paths, directories, _, _, keepsPaths_of_filePaths read,
      keepsNumbers_iff.mpr ⟨modes?, modes, rfl, long⟩,
      keepsNumbers_iff.mpr ⟨flags?, flags, rfl, long'⟩, ?_⟩
    rw [files]
  · rintro ⟨paths, directories, _, _, keeps, keepsModes, keepsFlags, rfl⟩
    obtain ⟨modes?, modes, rfl, long⟩ := keepsNumbers_iff.mp keepsModes
    obtain ⟨flags?, flags, rfl, long'⟩ := keepsNumbers_iff.mp keepsFlags
    refine ⟨(paths, directories), keeps.filePaths, modes?, modes, flags?, flags, _, ⟨long, rfl⟩, _,
      ⟨long', rfl⟩, ?_⟩
    rw [files]
    rfl

/-- A package whose record can be read is decoded exactly when its header keeps paths in one of the
three layouts, and modes and flags for each of them or for none. It has one file for each path then,
in their order, with the mode and the flags that stand at its position, or zero where there are
none. -/
theorem parsePackage_aligned {blob : Bytes} (parsed : parse blob = .ok header)
    (decodes : header.DecodesRecord) :
    ((∃ package, parsePackage blob = .ok package) ↔
      ∃ paths directories modes flags, header.KeepsPaths paths directories ∧
        header.KeepsNumbers Tag.fileModes paths.length modes ∧
        header.KeepsNumbers Tag.fileFlags paths.length flags) ∧
    ∀ package, parsePackage blob = .ok package → ∀ paths directories modes flags,
      header.KeepsPaths paths directories →
      header.KeepsNumbers Tag.fileModes paths.length modes →
      header.KeepsNumbers Tag.fileFlags paths.length flags →
      package.files = filesOf paths modes flags ∧ package.dirNames = directories := by
  obtain ⟨record, named⟩ := decodes.packageRecord
  have decoded : parsePackage blob = header.package := by rw [parsePackage, parsed, ok_bind]
  rw [decoded]
  refine ⟨⟨?_, ?_⟩, ?_⟩
  · rintro ⟨package, read⟩
    obtain ⟨paths, directories, modes, flags, keeps, keepsModes, keepsFlags, -⟩ :=
      (package_eq_ok_iff named).mp read
    exact ⟨paths, directories, modes, flags, keeps, keepsModes, keepsFlags⟩
  · rintro ⟨paths, directories, modes, flags, keeps, keepsModes, keepsFlags⟩
    exact ⟨_, (package_eq_ok_iff named).mpr
      ⟨paths, directories, modes, flags, keeps, keepsModes, keepsFlags, rfl⟩⟩
  · intro package read paths directories modes flags keeps keepsModes keepsFlags
    have made := (package_eq_ok_iff named).mpr
      ⟨paths, directories, modes, flags, keeps, keepsModes, keepsFlags, rfl⟩
    obtain rfl := Except.ok.inj (read.symm.trans made)
    exact ⟨rfl, rfl⟩

end Decoding

section Sample

/-- Two files in one directory. There is a tag for modes, but it is empty. -/
private def alignedHeader : Header where
  entries := [⟨Tag.name, .string, 0, 1⟩, ⟨Tag.baseNames, .stringArray, 2, 2⟩,
    ⟨Tag.directoryNames, .stringArray, 6, 1⟩, ⟨Tag.directoryIndexes, .int32, 10, 2⟩,
    ⟨Tag.fileModes, .int16, 18, 0⟩, ⟨Tag.fileFlags, .int32, 18, 2⟩]
  store := [97, 0, 120, 0, 121, 0, 47, 100, 47, 0, 0, 0, 0, 0, 0, 0, 0, 0,
    0xFF, 0, 0, 64, 0, 0, 0, 1]

theorem parsePackage_aligned_sample :
    parse alignedHeader.bytes = .ok alignedHeader ∧ alignedHeader.DecodesRecord ∧
      ∃ package, parsePackage alignedHeader.bytes = .ok package ∧
        package.files = [⟨"/d/x", 0, ⟨0xFF000040⟩⟩, ⟨"/d/y", 0, ⟨1⟩⟩] := by
  have parsed : parse alignedHeader.bytes = .ok alignedHeader := by cbv
  have decodes : alignedHeader.DecodesRecord := by
    refine ⟨⟨"a", by cbv⟩, ?_, ?_⟩
    · simp only [List.forall_mem_cons]
      exact ⟨⟨none, by rfl⟩, ⟨none, by rfl⟩, ⟨none, by rfl⟩, ⟨none, by rfl⟩, List.forall_mem_nil _⟩
    · simp only [List.forall_mem_cons]
      exact ⟨⟨none, by rfl⟩, ⟨none, by rfl⟩, List.forall_mem_nil _⟩
  have bases : alignedHeader.strings? Tag.baseNames = .ok (some ["x", "y"]) := by cbv
  have names : alignedHeader.strings? Tag.directoryNames = .ok (some ["/d/"]) := by cbv
  have places : alignedHeader.integers? Tag.directoryIndexes = .ok (some [0, 0]) := by cbv
  have keeps : alignedHeader.KeepsPaths ["/d/x", "/d/y"] ["/d/"] :=
    .split bases names places rfl (by decide)
  have modes : alignedHeader.KeepsNumbers Tag.fileModes 2 [] := .inr ⟨by cbv, .inl rfl⟩
  have flags : alignedHeader.KeepsNumbers Tag.fileFlags 2 [-16777152, 1] := .inr ⟨by cbv, .inr rfl⟩
  obtain ⟨accepted, files⟩ := parsePackage_aligned parsed decodes
  obtain ⟨package, read⟩ := accepted.mpr ⟨_, _, _, _, keeps, modes, flags⟩
  refine ⟨parsed, decodes, package, read, ?_⟩
  rw [(files package read _ _ _ _ keeps modes flags).1]
  decide

end Sample

end ImageAudit.Rpm.Header
