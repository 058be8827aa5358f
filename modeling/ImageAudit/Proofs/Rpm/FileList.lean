import ImageAudit.Proofs.Fallible
import ImageAudit.Proofs.Rpm.HeaderStrings
import ImageAudit.Rpm.PackageHeader

/-! # File lists of a package

The files of a decoded package stand in the order of the paths that its header keeps, either whole
or as a directory and a last component each.
-/

namespace ImageAudit.Rpm.Header

open Fallible

private theorem perFile_length {tag : String} {files : Nat} {values found : List Int}
    (read : perFile tag files values = .ok found) : found.length = files := by
  unfold perFile at read
  split at read
  · cases read
    assumption
  · split at read
    · cases read
      exact List.length_replicate ..
    · cases read

private theorem map_path_installedFile {paths : List String} {modes flags : List Int}
    (modesLength : modes.length = paths.length) (flagsLength : flags.length = paths.length) :
    ((paths.zip (modes.zip flags)).map fun (path, mode, flags) =>
      installedFile path mode flags).map (·.path) = paths := by
  rw [List.map_map]
  exact List.map_fst_zip (by rw [List.length_zip]; omega)

/-- A decoded package has the paths and the directories of its header. -/
theorem filePaths_of_package {header : Header} {package : InstalledPackage}
    (decoded : header.package = .ok package) :
    header.filePaths = .ok (package.files.map (·.path), package.dirNames) := by
  simp only [Header.package, bind_eq_ok_iff] at decoded
  obtain ⟨record, -, ⟨paths, directories⟩, read, modes, -, flags, -, modes', perMode, flags',
    perFlags, same⟩ := decoded
  cases same
  rw [read, map_path_installedFile (perFile_length perMode) (perFile_length perFlags)]

theorem pathIn_ofNat {directories : List String} {position : Nat} {directory : String}
    (present : directories[position]? = some directory) (baseName : String) :
    pathIn directories.toArray baseName position = .ok (directory ++ baseName) := by
  have natural : ¬ (position : Int) < 0 := by omega
  rw [pathIn, if_neg natural, Int.toNat_natCast, List.getElem?_toArray, present]

private theorem getElem?_of_joinPaths {directories baseNames paths : List String}
    {indexes : List Int} (joined : joinPaths directories baseNames indexes = .ok paths)
    {position place : Nat} {baseName directory : String}
    (base : baseNames[position]? = some baseName) (index : indexes[position]? = some (place : Int))
    (name : directories[place]? = some directory) :
    paths[position]? = some (directory ++ baseName) := by
  unfold joinPaths at joined
  split at joined
  · cases joined
  have pair : (baseNames.zip indexes)[position]? = some (baseName, (place : Int)) := by
    rw [List.getElem?_zip_eq_some]
    exact ⟨base, index⟩
  obtain ⟨path, found, same⟩ := getElem?_of_mapM joined pair
  change pathIn directories.toArray baseName place = .ok path at same
  rw [pathIn_ofNat name] at same
  rw [found, Except.ok.inj same]

/-- The header keeps the path of a file as a directory and a last component. -/
def KeepsSplit (header : Header) (position : Nat) (directory baseName : Bytes) : Prop :=
  ∃ directories baseNames indexes, ∃ place : Nat,
    header.Records Tag.directoryNames directories ∧ header.Records Tag.baseNames baseNames ∧
    header.integers? Tag.directoryIndexes = .ok (some indexes) ∧
    baseNames[position]? = some baseName ∧ indexes[position]? = some (place : Int) ∧
    directories[place]? = some directory

/-- The header keeps the path of a file whole. -/
def KeepsWhole (header : Header) (position : Nat) (path : Bytes) : Prop :=
  header.entry? Tag.baseNames = none ∧
    ∃ paths, header.Records Tag.oldFileNames paths ∧ paths[position]? = some path

section Decoded

variable {header : Header} {package : InstalledPackage} (decoded : header.package = .ok package)
include decoded

theorem KeepsSplit.path {position : Nat} {directory baseName : Bytes}
    (keeps : header.KeepsSplit position directory baseName) :
    ∃ file, package.files[position]? = some file ∧
      file.path = Utf8.lossy directory ++ Utf8.lossy baseName := by
  obtain ⟨directories, baseNames, indexes, place, keepsDirectories, keepsBases, keepsIndexes, base,
    index, name⟩ := keeps
  have read := filePaths_of_package decoded
  simp only [filePaths, keepsBases.strings?, keepsDirectories.strings?, keepsIndexes, need,
    bind_eq_ok_iff, Except.ok.injEq, exists_eq_left'] at read
  obtain ⟨paths, joined, same⟩ := read
  have base' : (baseNames.map Utf8.lossy)[position]? = some (Utf8.lossy baseName) := by
    rw [List.getElem?_map, base, Option.map_some]
  have name' : (directories.map Utf8.lossy)[place]? = some (Utf8.lossy directory) := by
    rw [List.getElem?_map, name, Option.map_some]
  have found := getElem?_of_joinPaths joined base' index name'
  rw [(Prod.mk.inj (Except.ok.inj same)).1, List.getElem?_map, Option.map_eq_some_iff] at found
  exact found

theorem KeepsWhole.path {position : Nat} {path : Bytes} (keeps : header.KeepsWhole position path) :
    ∃ file, package.files[position]? = some file ∧ file.path = Utf8.lossy path := by
  obtain ⟨noBases, paths, keepsPaths, present⟩ := keeps
  have read := filePaths_of_package decoded
  have none : header.strings? Tag.baseNames = .ok none := by rw [strings?, noBases]
  rw [filePaths, none, keepsPaths.strings?] at read
  have same := (Prod.mk.inj (Except.ok.inj read)).1
  have found := congrArg (·[position]?) same
  simp only [List.getElem?_map, present, Option.map_some] at found
  exact Option.map_eq_some_iff.mp found.symm

end Decoded

end ImageAudit.Rpm.Header
