import ImageAudit.Proofs.Layer.Scan
import ImageAudit.Proofs.Ownership
import ImageAudit.Proofs.Path
import ImageAudit.Proofs.Rpm.FileList
import ImageAudit.Proofs.Text.Utf8
import ImageAudit.Tar.Writer
import Mathlib

/-! # One path in the database and in the layer

A package database keeps a path in two pieces or whole, an archive keeps it from the root or not,
and none of them need be sound text. A slash is a character of its own wherever bytes are decoded,
and resolving a path passes over what differs in front, so all of these come to one normalized path:
the one under which an owner is filed is the one that a layer changes.
-/

namespace ImageAudit

open Utf8 (decodeFrom decodeFrom_ne decodeFrom_slash_append replacement)

def storedPath (path : Bytes) : String := Path.normalize (Utf8.lossy path)

/-- The last component of the path of a file that is no marker. -/
structure IsFileName (name : Bytes) : Prop where
  notEmpty : name ≠ []
  noSlash : 0x2F ∉ name
  notHere : name ≠ [0x2E]
  notAbove : name ≠ [0x2E, 0x2E]
  notMarker : ¬ [0x2E, 0x77, 0x68, 0x2E] <+: name

/-- The ways in which an archive may write the path of a file in a directory. -/
def archiveSpellings (directory name : Bytes) : List Bytes :=
  [directory ++ name, [0x2E, 0x2F] ++ (directory ++ name),
    (directory ++ name).dropWhile (· == 0x2F)]

section Decoding

private theorem resolve_decodeFrom_dropWhile (path : Bytes) :
    Path.resolve (decodeFrom replacement [] (path.dropWhile (· == 0x2F))) =
      Path.resolve (decodeFrom replacement [] path) := by
  induction path with
  | nil => rfl
  | cons byte rest ih =>
    by_cases slash : byte = 0x2F
    · have read := decodeFrom_slash_append [] rest
      rw [List.nil_append, Utf8.decodeFrom_nil, List.nil_append] at read
      rw [slash, List.dropWhile_cons_of_pos (by decide), ih, read, Path.resolve_slash_cons]
    · rw [List.dropWhile_cons_of_neg (by simpa using slash)]

private theorem IsFileName.isName {name : Bytes} (proper : IsFileName name) :
    Path.IsName (decodeFrom replacement [] name) where
  noSlash := fun slash => proper.noSlash (Utf8.mem_of_mem_decodeFrom (by decide) slash)
  notEmpty := fun empty => proper.notEmpty (Utf8.decodeFrom_eq_nil_iff.mp empty)
  notHere := decodeFrom_ne (by simp) proper.notHere
  notAbove := decodeFrom_ne (by simp) proper.notAbove

private theorem IsFileName.not_prefix {name : Bytes} (proper : IsFileName name) :
    ¬ Layer.whiteoutStart.toList <+: decodeFrom replacement [] name := by
  rintro ⟨rest, read⟩
  obtain ⟨after, stored, _⟩ :=
    Utf8.exists_of_decodeFrom_eq_append (by simp [Layer.whiteoutStart]) read.symm
  exact proper.notMarker ⟨after, stored.symm⟩

end Decoding

section Spellings

variable {directory name : Bytes} (ends : directory.getLast? = some 0x2F)
include ends

private theorem lossy_append_of_slash :
    Utf8.lossy (directory ++ name) = Utf8.lossy directory ++ Utf8.lossy name := by
  obtain ⟨before, rfl⟩ := List.getLast?_eq_some_iff.mp ends
  rw [← String.toList_inj, String.toList_append, Utf8.toList_lossy, Utf8.toList_lossy,
    Utf8.toList_lossy, List.append_assoc, List.singleton_append, decodeFrom_slash_append,
    decodeFrom_slash_append, Utf8.decodeFrom_nil, List.append_assoc]
  rfl

variable (proper : IsFileName name)
include proper

/-- Whatever the spelling, the path resolves to the name in its directory. -/
private theorem exists_resolve_eq_concat :
    ∃ segments, ∀ path ∈ archiveSpellings directory name,
      Path.resolve (decodeFrom replacement [] path) =
        segments ++ [decodeFrom replacement [] name] := by
  obtain ⟨before, rfl⟩ := List.getLast?_eq_some_iff.mp ends
  refine ⟨Path.resolve (decodeFrom replacement [] before), ?_⟩
  have plain : Path.resolve (decodeFrom replacement [] (before ++ [0x2F] ++ name)) =
      Path.resolve (decodeFrom replacement [] before) ++ [decodeFrom replacement [] name] := by
    rw [List.append_assoc, List.singleton_append, decodeFrom_slash_append,
      proper.isName.resolve_append_slash]
  intro path spelled
  simp only [archiveSpellings, List.mem_cons, List.not_mem_nil, or_false] at spelled
  rcases spelled with rfl | rfl | rfl
  · exact plain
  · have read := decodeFrom_slash_append [0x2E] (before ++ [0x2F] ++ name)
    have dot : decodeFrom replacement [] [0x2E] = ['.'] := by
      rw [Utf8.decodeFrom_cons, Utf8.next_ascii _ (by decide), Utf8.decodeFrom_nil]
      rfl
    rw [dot] at read
    change Path.resolve (decodeFrom replacement []
      ([0x2E] ++ 0x2F :: (before ++ [0x2F] ++ name))) = _
    rw [read, List.singleton_append, Path.resolve_dot_slash_cons, plain]
  · rw [resolve_decodeFrom_dropWhile, plain]

/-- Every spelling names one file, at the normalized path of the plain one. -/
private theorem ofPath_storedPath {path : Bytes}
    (spelled : path ∈ archiveSpellings directory name) :
    Layer.Member.ofPath (storedPath path) = .file (storedPath (directory ++ name)) := by
  obtain ⟨segments, resolved⟩ := exists_resolve_eq_concat ends proper
  have normal {other : Bytes} (member : other ∈ archiveSpellings directory name) :
      storedPath other =
        String.ofList (Path.join (segments ++ [decodeFrom replacement [] name])) := by
    have same := resolved other member
    rw [storedPath, Path.normalize_of_resolve, Utf8.toList_lossy, same]
    rw [Utf8.toList_lossy, same]
    exact List.append_ne_nil_of_right_ne_nil _ (List.cons_ne_nil _ _)
  rw [normal spelled, normal (List.mem_cons_self ..),
    Layer.Member.ofPath_join segments proper.isName proper.not_prefix]

end Spellings

/-- The file at a position, where it is not passed over, has its owner under the path. -/
def InstalledPackage.FiledUnder (package : InstalledPackage) (position : Nat) (path : String) :
    Prop :=
  ∃ file, package.files[position]? = some file ∧
    ∀ policy claim, package.claim? policy file = some claim →
      claim.path = path ∧ ∀ packages, package ∈ packages →
        ((OwnershipMap.resolve policy packages).owner? path).isSome = true

private theorem InstalledPackage.filedUnder_of_path {package : InstalledPackage} {position : Nat}
    {file : InstalledFile} (present : package.files[position]? = some file) {path : Bytes}
    (same : file.path = Utf8.lossy path) : package.FiledUnder position (storedPath path) := by
  refine ⟨file, present, ?_⟩
  intro policy claim claimed
  have place : claim.path = storedPath path := by
    simp only [claim?] at claimed
    split at claimed
    · cases claimed
    · cases claimed
      rw [same, storedPath]
  refine ⟨place, ?_⟩
  intro packages listed
  rw [← place]
  refine OwnershipMap.isSome_owner?_of_mem (List.mem_flatMap.mpr ⟨package, listed, ?_⟩)
  exact List.mem_filterMap.mpr ⟨file, List.mem_of_getElem? present, claimed⟩

/-- However a database and an archive write the path of a file, they agree on the normalized one:
the owner is filed under the path that the layer changes. -/
theorem filedUnder_and_changed (directory name : Bytes) (ends : directory.getLast? = some 0x2F)
    (proper : IsFileName name) :
    (∀ (header : Rpm.Header) package position,
      header.package = .ok package →
      header.KeepsSplit position directory name ∨
        header.KeepsWhole position (directory ++ name) →
      package.FiledUnder position (storedPath (directory ++ name))) ∧
    (∀ site stream staged contents left,
      Layer.scan site stream staged = (.ok contents, left) →
      ∃ entries, Layer.Scans site stream staged entries contents ∧
        ∀ entry ∈ entries, entry.kind ≠ .directory → entry.kind.isExtension = false →
          entry.path ∈ archiveSpellings directory name →
          ∃ file, contents.changed[storedPath (directory ++ name)]? = some file ∧
            file.path = storedPath (directory ++ name)) := by
  constructor
  · rintro header package position decoded (split | whole)
    · obtain ⟨file, present, path⟩ := split.path decoded
      rw [← lossy_append_of_slash ends] at path
      exact InstalledPackage.filedUnder_of_path present path
    · obtain ⟨file, present, path⟩ := whole.path decoded
      exact InstalledPackage.filedUnder_of_path present path
  · intro site stream staged contents left scanned
    obtain ⟨entries, scans⟩ := Layer.exists_scans scanned
    refine ⟨entries, scans, ?_⟩
    intro entry member noDirectory noExtension spelled
    have isFile : Layer.IsFileAt (storedPath (directory ++ name)) entry := by
      have considered : ¬ (entry.kind = .directory ∨ entry.kind.isExtension = true) := by
        rw [noExtension]
        exact not_or.mpr ⟨noDirectory, Bool.false_ne_true⟩
      rw [Layer.IsFileAt, Layer.Member.ofEntry, if_neg considered]
      exact ofPath_storedPath ends proper spelled
    exact scans.getElem?_changed member isFile

section Sample

/-- The directory `/usr/../bin/`, whose last component but one is given up again. -/
def sampleDirectory : Bytes :=
  [0x2F, 0x75, 0x73, 0x72, 0x2F, 0x2E, 0x2E, 0x2F, 0x62, 0x69, 0x6E, 0x2F]

/-- The name of a file: `t` and a byte that is no text. -/
def sampleName : Bytes := [0x74, 0xFF]

def sampleHeader : Rpm.Header where
  entries := [⟨Rpm.Tag.name, .string, 0, 1⟩, ⟨Rpm.Tag.baseNames, .stringArray, 2, 1⟩,
    ⟨Rpm.Tag.directoryNames, .stringArray, 5, 1⟩, ⟨Rpm.Tag.directoryIndexes, .int32, 18, 1⟩]
  store := [0x70, 0] ++ (sampleName ++ [0]) ++ (sampleDirectory ++ [0]) ++ [0, 0, 0, 0]

def samplePackage : InstalledPackage where
  record := ⟨"p", "", "", "", none, "", 0⟩
  files := [⟨"/usr/../bin/t\uFFFD", 0, .empty⟩]
  dirNames := ["/usr/../bin/"]

/-- An archive of the file, with `./` in front of its path. -/
def sampleArchive : ByteStream :=
  .ofBytes (Tar.Writer.HeaderFields.block
    ⟨[0x2E, 0x2F] ++ (sampleDirectory ++ sampleName), 0o755, 0, 0x30, []⟩)

def sampleSite : Layer.ScanSite := ⟨"layer", "/staging", .never⟩

private theorem exists_sampleEntry {entries : List Tar.Entry} {contents : LayerContents}
    (scans : Layer.Scans sampleSite sampleArchive .empty entries contents) :
    ∃ entry ∈ entries, entry.kind = .regular ∧
      entry.path = [0x2E, 0x2F] ++ (sampleDirectory ++ sampleName) := by
  have first : (Tar.next? (Tar.Reader.new sampleArchive)).1.toOption.map
      (Option.map fun entry => (entry.kind, entry.path)) =
        some (some (.regular, [0x2E, 0x2F] ++ (sampleDirectory ++ sampleName))) := by
    decide +kernel
  cases read : (Tar.next? (Tar.Reader.new sampleArchive)).1 with
  | error fault =>
    rw [read] at first
    cases first
  | ok next? =>
    rw [read] at first
    cases next? with
    | none => cases first
    | some entry =>
      obtain ⟨kind, path⟩ := Prod.mk.inj (Option.some.inj (Option.some.inj first))
      exact ⟨entry, scans.mem_of_next? read, kind, path⟩

/-- The file is filed as `bin/t` and a replacement character, and so it is changed. -/
theorem filedUnder_and_changed_sample :
    sampleDirectory.getLast? = some 0x2F ∧ IsFileName sampleName ∧
      storedPath (sampleDirectory ++ sampleName) = "bin/t\uFFFD" ∧
      (sampleHeader.package = .ok samplePackage ∧
        sampleHeader.KeepsSplit 0 sampleDirectory sampleName ∧
        samplePackage.FiledUnder 0 (storedPath (sampleDirectory ++ sampleName))) ∧
      ∃ contents left file,
        Layer.scan sampleSite sampleArchive .empty = (.ok contents, left) ∧
        contents.changed[storedPath (sampleDirectory ++ sampleName)]? = some file ∧
        file.path = "bin/t\uFFFD" := by
  have ends : sampleDirectory.getLast? = some 0x2F := rfl
  have proper : IsFileName sampleName :=
    ⟨by decide, by decide, by decide, by decide, by decide⟩
  have decoded : sampleHeader.package = .ok samplePackage := by cbv
  have split : sampleHeader.KeepsSplit 0 sampleDirectory sampleName := by
    refine ⟨[sampleDirectory], [sampleName], [0], 0, ?_, ?_, by cbv, rfl, rfl, rfl⟩
    · exact ⟨_, rfl, ⟨by decide +kernel, by decide +kernel⟩, .inl ⟨.inl rfl, rfl⟩⟩
    · exact ⟨_, rfl, ⟨by decide +kernel, by decide +kernel⟩, .inl ⟨.inl rfl, rfl⟩⟩
  have stored : storedPath (sampleDirectory ++ sampleName) = "bin/t\uFFFD" := by cbv
  have succeeds : (Layer.scan sampleSite sampleArchive .empty).1.isOk = true := by decide +kernel
  have agree := filedUnder_and_changed _ _ ends proper
  refine ⟨ends, proper, stored, ⟨decoded, split, agree.1 _ _ _ decoded (.inl split)⟩, ?_⟩
  cases scanned : Layer.scan sampleSite sampleArchive .empty with
  | mk outcome left =>
    rw [scanned] at succeeds
    cases outcome with
    | error failure => cases succeeds
    | ok contents =>
      obtain ⟨entries, scans, changed⟩ := agree.2 _ _ _ _ _ scanned
      obtain ⟨entry, member, regular, path⟩ := exists_sampleEntry scans
      have spelled : entry.path ∈ archiveSpellings sampleDirectory sampleName := by
        rw [path]
        decide
      obtain ⟨file, present, named⟩ :=
        changed entry member (by rw [regular]; decide) (by rw [regular]; decide) spelled
      exact ⟨contents, left, file, rfl, present, named.trans stored⟩

end Sample

end ImageAudit
