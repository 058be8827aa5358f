import ImageAudit.Proofs.FileTree.Making
import ImageAudit.Proofs.Layer.Members

/-! # What a scan sets aside

A scan sets the files of a package database aside as it meets them, the later one for a path over
the earlier one. So when the archive has been read to its end, just these files lie in the directory
of the layer, each with the data of the last regular file at its path.
-/

namespace ImageAudit

namespace Rpm

/-- The paths of the files of a package database. -/
def databasePaths : List String :=
  databaseLocations.flatMap fun location =>
    if location.format = .sqlite then
      [location.path, logPath location.path, logIndexPath location.path]
    else [location.path]

theorem isDatabaseFile_iff {path : String} : isDatabaseFile path = true ↔ path ∈ databasePaths := by
  simp [isDatabaseFile, databasePaths, databaseLocations, DatabaseLocation.covers, or_assoc]

/-- A slash and the longest of these paths. -/
def databaseRoom : Nat := 38

end Rpm

namespace Layer

open FileTree Stateful
open Rpm (databasePaths isDatabaseFile_iff)
open Tar (Listed Reader)

/-- What it takes to set a file aside under its path. -/
structure IsStageable (path : String) : Prop where
  meaning : Member.ofPath path = .file path
  parent : components (Path.parentAndName path).1 = (components path).dropLast
  deep : (components path).dropLast ≠ []
  names : ∀ name ∈ components path, IsNodeName name
  noZero : '\x00' ∉ path.toList ∧ '\x00' ∉ (Path.parentAndName path).1.toList
  short : path.utf8ByteSize < Rpm.databaseRoom ∧
    (Path.parentAndName path).1.utf8ByteSize < Rpm.databaseRoom

theorem isStageable_of_mem {path : String} (member : path ∈ databasePaths) : IsStageable path := by
  have sound : ∀ path ∈ databasePaths, Member.ofPath path = .file path ∧
      components (Path.parentAndName path).1 = (components path).dropLast ∧
      (components path).dropLast ≠ [] ∧
      (∀ name ∈ components path,
        name ≠ "" ∧ name ≠ "." ∧ name ≠ ".." ∧ name.utf8ByteSize ≤ maxNameSize) ∧
      ('\x00' ∉ path.toList ∧ '\x00' ∉ (Path.parentAndName path).1.toList) ∧
      path.utf8ByteSize < Rpm.databaseRoom ∧
        (Path.parentAndName path).1.utf8ByteSize < Rpm.databaseRoom := by
    decide +kernel
  obtain ⟨meaning, parent, deep, names, noZero, short⟩ := sound path member
  refine ⟨meaning, parent, deep, fun name listed => ?_, noZero, short⟩
  obtain ⟨notEmpty, notHere, notAbove, short⟩ := names name listed
  exact ⟨⟨notEmpty, notHere, notAbove⟩, short⟩

/-- None of these files lies on the way to another one. -/
theorem eq_of_prefix_components {path other : String} (member : path ∈ databasePaths)
    (member' : other ∈ databasePaths) (way : components other <+: components path) :
    other = path := by
  have apart : ∀ path ∈ databasePaths, ∀ other ∈ databasePaths,
      components other <+: components path → other = path := by
    decide +kernel
  exact apart path member other member' way

namespace IsStageable

variable {path : String} (stageable : IsStageable path)
include stageable

theorem notRoot : components path ≠ [] := by
  intro root
  have deep := stageable.deep
  rw [root] at deep
  exact deep rfl

theorem cut : components? path = .ok (components path) := by
  have room : HasRoom path 0 :=
    ⟨stageable.noZero.1, Nat.le_trans (Nat.le_of_lt stageable.short.1) (by decide)⟩
  exact room.components?

theorem cut_parent :
    components? (Path.parentAndName path).1 = .ok (components path).dropLast := by
  have room : HasRoom (Path.parentAndName path).1 0 :=
    ⟨stageable.noZero.2, Nat.le_trans (Nat.le_of_lt stageable.short.2) (by decide)⟩
  rw [room.components?, stageable.parent]

end IsStageable

/-- The member is a regular file at a normalized path. -/
def IsRegularAt (path : String) (member : Listed) : Prop :=
  member.entry.kind = .regular ∧ Path.normalize (Utf8.lossy member.entry.path) = path

instance (path : String) (member : Listed) : Decidable (IsRegularAt path member) :=
  inferInstanceAs (Decidable (_ ∧ _))

/-- The data of the last regular file at a path. -/
def lastData? (members : List Listed) (path : String) : Option Bytes :=
  (members.filter fun member => IsRegularAt path member).getLast?.map Listed.data

theorem lastData?_concat (members : List Listed) (member : Listed) (path : String) :
    lastData? (members ++ [member]) path =
      if IsRegularAt path member then some member.data else lastData? members path := by
  rw [lastData?, List.filter_append, List.filter_singleton]
  by_cases here : IsRegularAt path member
  · rw [if_pos here, decide_eq_true here, cond_true, List.getLast?_concat, Option.map_some]
  · rw [if_neg here, decide_eq_false here, cond_false, List.append_nil, lastData?]

theorem isSome_lastData? (members : List Listed) (path : String) :
    (lastData? members path).isSome = members.any fun member => IsRegularAt path member := by
  rw [lastData?, Option.isSome_map, Bool.eq_iff_iff, ← Option.ne_none_iff_isSome, Ne,
    List.getLast?_eq_none_iff, List.filter_eq_nil_iff, List.any_eq_true]
  simp

/-- Of the files of a database, each lies in the tree with the data of the last regular file at its
path, and no other file does. -/
structure Mirrors (tree : FileTree) (members : List Listed) : Prop where
  rooted : tree.IsRooted
  node? : ∀ path ∈ databasePaths,
    tree.node? (components path) = (lastData? members path).map FileNode.file
  only : ∀ place content, tree.node? place = some (.file content) →
    ∃ path ∈ databasePaths, place = components path

theorem mirrors_empty : Mirrors .empty [] where
  rooted place name present := by
    rw [FileTree.node?, if_neg (by simp)] at present
    cases present
  node? path member := by
    rw [FileTree.node?, if_neg (isStageable_of_mem member).notRoot]
    rfl
  only place content found := by
    unfold FileTree.node? at found
    split at found <;> cases found

namespace Mirrors

variable {tree made : FileTree} {members : List Listed} {member : Listed} {path : String}
  (mirrors : Mirrors tree members)
include mirrors

theorem content? (file : path ∈ databasePaths) : tree.content? path = lastData? members path := by
  have stageable := isStageable_of_mem file
  rw [FileTree.content?, mirrors.rooted.find? stageable.cut stageable.names,
    mirrors.node? path file]
  cases lastData? members path <;> rfl

theorem noDirectory (file : path ∈ databasePaths) :
    tree.node? (components path) ≠ some .directory := by
  rw [mirrors.node? path file]
  cases lastData? members path <;> exact nofun

/-- No file stands in the way of another one. -/
theorem isFree (file : path ∈ databasePaths) : tree.IsFree (components path).dropLast := by
  intro upper higher content found
  obtain ⟨other, file', rfl⟩ := mirrors.only upper content found
  obtain rfl := eq_of_prefix_components file file' (higher.trans (List.dropLast_prefix _))
  exact not_prefix_dropLast (isStageable_of_mem file).notRoot higher

/-- A regular file that is set aside is the last one at its path. -/
theorem stores (file : path ∈ databasePaths) (here : IsRegularAt path member)
    (stored : tree.Stores (components path) member.data made) :
    Mirrors made (members ++ [member]) where
  rooted := mirrors.rooted.stores stored (mirrors.noDirectory file)
  node? other file' := by
    rw [stored, lastData?_concat]
    by_cases same : other = path
    · rw [same, if_pos rfl, if_pos here, Option.map_some]
    · have elsewhere : ¬ components other <+: components path := fun way =>
        same (eq_of_prefix_components file file' way)
      have apart : components other ≠ components path := by
        intro equal
        rw [equal] at elsewhere
        exact elsewhere List.prefix_rfl
      have notHere : ¬ IsRegularAt other member := fun there => same (there.2.symm.trans here.2)
      rw [if_neg apart, if_neg elsewhere, if_neg notHere, mirrors.node? other file']
  only place content found := by
    rw [stored] at found
    split_ifs at found with same way
    · exact ⟨path, file, same⟩
    · cases found
    · exact mirrors.only place content found

/-- A member that is no file of a database leaves what is set aside. -/
theorem concat (elsewhere : ∀ path ∈ databasePaths, ¬ IsRegularAt path member) :
    Mirrors tree (members ++ [member]) where
  rooted := mirrors.rooted
  node? path file := by
    rw [lastData?_concat, if_neg (elsewhere path file), mirrors.node? path file]
  only := mirrors.only

end Mirrors

section Steps

variable {site : ScanSite} {state : ScanState} {α : Type}

theorem Scanning.reading_of_ok {step : Tar.Reading α} {value : α} {reader next : Reader}
    (failure : Tar.Fault → Failure) (staged : FileTree)
    (ran : step reader = (.ok value, next)) :
    reading failure step ⟨reader, staged⟩ = (.ok value, ⟨next, staged⟩) := by
  simp only [reading, ran]
  rfl

theorem Scanning.making_of_ok {step : FileTree.Making α} {value : α} {staged next : FileTree}
    (failure : PathFault → Failure) (reader : Reader)
    (ran : step staged = (.ok value, next)) :
    making failure step ⟨reader, staged⟩ = (.ok value, ⟨reader, next⟩) := by
  simp only [making, ran]
  rfl

theorem ScanSite.reach_apply {path : String} {tree : FileTree}
    (room : HasRoom (Path.below site.directory path) 0) :
    site.reach path tree = (.ok (), tree) := by
  rw [reach, room.components?]
  rfl

/-- A file is set aside with its data, where no file stands in its way. -/
theorem ScanSite.succeeds_stage (room : HasRoom site.directory Rpm.databaseRoom) {path : String}
    (stageable : IsStageable path) (free : state.staged.IsFree (components path).dropLast)
    (noDirectory : state.staged.node? (components path) ≠ some .directory) {entry : Tar.Entry}
    (inside : entry.size ≤ state.reader.rest.length) :
    Succeeds (site.stage entry path) state fun _ final =>
      state.staged.Stores (components path) (state.reader.rest.take entry.size) final.staged := by
  have roomPath : HasRoom (Path.below site.directory path) 0 :=
    (room.of_le (by have := stageable.short.1; omega)).below stageable.noZero.1
  have roomParent : HasRoom (Path.below site.directory (Path.parentAndName path).1) 0 :=
    (room.of_le (by have := stageable.short.2; omega)).below stageable.noZero.2
  -- The directory is made.
  obtain ⟨made, ensured, extended⟩ := exists_ensureDirectories stageable.cut_parent stageable.deep
    free fun name member => stageable.names name ((List.dropLast_sublist _).subset member)
  have noDirectory' : made.node? (components path) ≠ some .directory := by
    rw [extended, if_neg (not_prefix_dropLast stageable.notRoot)]
    exact noDirectory
  -- The file is made in it, empty.
  have empty := extended.stores stageable.notRoot []
  have created := writeFile_apply stageable.cut stageable.notRoot extended.hasDirectories
    stageable.names noDirectory' []
  generalize made.put (components path) (.file []) = between at empty created
  have opened : (do
      site.reach (Path.parentAndName path).1
      ensureDirectories (Path.parentAndName path).1
      site.reach path
      writeFile path [] : Making Unit) state.staged = (.ok (), between) := by
    rw [bind_apply, reach_apply roomParent]
    dsimp only
    rw [bind_apply, ensured]
    dsimp only
    rw [bind_apply, reach_apply roomPath]
    exact created
  -- The data is written over it.
  have filled := empty.put stageable.notRoot (state.reader.rest.take entry.size)
  have written := writeFile_apply stageable.cut stageable.notRoot
    (empty.hasDirectories stageable.notRoot) stageable.names
    (by rw [empty.node?_self]; exact nofun) (state.reader.rest.take entry.size)
  obtain ⟨reader, taken, -⟩ := Tar.Reading.take_of_le inside
  have content : entry.content entry.size state.reader =
      (.ok (state.reader.rest.take entry.size), reader) := by
    rw [Tar.Entry.content, Nat.min_self]
    exact taken
  exact succeeds_bind_of_eq (Scanning.making_of_ok _ state.reader opened) <|
    succeeds_bind_of_eq (Scanning.reading_of_ok _ between content) <|
      succeeds_of_eq (Scanning.making_of_ok _ reader written) filled

theorem ScanSite.poll_apply (never : site.signal = .never) (state : ScanState) :
    site.poll state = (.ok (), state) := by
  rw [poll, bind_apply, get_apply]
  dsimp only
  rw [never]
  rfl

theorem ScanSite.pollAt_apply (never : site.signal = .never) (number : Nat) (state : ScanState) :
    site.pollAt number state = (.ok (), state) := by
  unfold pollAt
  split
  · exact poll_apply never state
  · rfl

theorem ScanSite.succeeds_osReleaseUpdate {entry : Tar.Entry}
    (inside : entry.size ≤ state.reader.rest.length) :
    Succeeds (site.osReleaseUpdate entry) state fun _ final => final.staged = state.staged := by
  unfold osReleaseUpdate
  split
  · split <;> exact succeeds_pure rfl
  · split <;> exact succeeds_pure rfl
  · obtain ⟨reader, taken, -⟩ :=
      Tar.Reading.take_of_le (Nat.le_trans (Nat.min_le_left entry.size maxOsReleaseSize) inside)
    exact succeeds_bind_of_eq (Scanning.reading_of_ok _ state.staged taken) (succeeds_pure rfl)
  · exact succeeds_pure rfl

end Steps

/-- The file that a member is, if it is one, has a mode. -/
def HasMode (member : Listed) : Prop :=
  ∀ path, member.meaning = .file path → member.entry.header.mode?.isSome

/-- A regular file of a database is one to be set aside. -/
theorem IsRegularAt.meaning {path : String} {member : Listed} (here : IsRegularAt path member)
    (file : path ∈ databasePaths) : member.meaning = .file path := by
  rw [Listed.meaning, Member.ofEntry, here.1, here.2, if_neg (by decide)]
  exact (isStageable_of_mem file).meaning

theorem normalize_of_meaning {path : String} {member : Listed}
    (meant : member.meaning = .file path) :
    Path.normalize (Utf8.lossy member.entry.path) = path := by
  rw [Listed.meaning, Member.ofEntry] at meant
  split at meant
  · cases meant
  · exact (Member.ofPath_eq_file_iff.mp meant).1

section Gather

variable {site : ScanSite} {state : ScanState} {gathered : Gathered} {seen : List Listed}
  {member : Listed}

/-- A file whose mode cannot be read ends the scan. -/
theorem ScanSite.gather_of_not_hasMode (noMode : ¬ HasMode member) :
    site.gather gathered member.entry state = (.error (site.unreadable .number), state) := by
  simp only [HasMode, not_forall, Option.not_isSome_iff_eq_none] at noMode
  obtain ⟨path, meant, absent⟩ := noMode
  rw [gather, show Member.ofEntry member.entry.kind member.entry.path = .file path from meant]
  dsimp only
  rw [gatherFile, bind_apply, absent]
  rfl

variable (mirrors : Mirrors state.staged seen) (never : site.signal = .never)
  (room : HasRoom site.directory Rpm.databaseRoom)
  (data : state.reader.rest.take member.entry.size = member.data)
  (inside : member.entry.size ≤ state.reader.rest.length)
include mirrors never room data inside

theorem ScanSite.succeeds_gatherFile {path : String} (meant : member.meaning = .file path)
    (moded : member.entry.header.mode?.isSome) :
    Succeeds (site.gatherFile gathered member.entry path) state fun _ final =>
      Mirrors final.staged (seen ++ [member]) := by
  obtain ⟨mode, found⟩ := Option.isSome_iff_exists.mp moded
  have numbered : site.read (Tar.Reading.need .number member.entry.header.mode?) state =
      (.ok mode, state) := by
    rw [found]
    rfl
  have normal := normalize_of_meaning meant
  refine succeeds_bind_of_eq numbered ?_
  split <;> rename_i database
  · have file := isDatabaseFile_iff.mp database.2
    have stages := succeeds_stage room (isStageable_of_mem file) (mirrors.isFree file)
      (mirrors.noDirectory file) inside
    refine succeeds_bind_of_eq (poll_apply never state) (stages.bind fun _ final stored => ?_)
    rw [data] at stored
    exact succeeds_pure (mirrors.stores file ⟨database.1, normal⟩ stored)
  · have elsewhere : ∀ other ∈ databasePaths, ¬ IsRegularAt other member := by
      rintro other file ⟨regular, here⟩
      exact database ⟨regular, isDatabaseFile_iff.mpr (normal.symm.trans here ▸ file)⟩
    split
    · refine (succeeds_osReleaseUpdate inside).bind fun _ final same => succeeds_pure ?_
      rw [same]
      exact mirrors.concat elsewhere
    · exact succeeds_pure (mirrors.concat elsewhere)

/-- One more member is set aside if it is a file of a database, and leaves what lies there if it is
none. -/
theorem ScanSite.succeeds_gather (moded : HasMode member) :
    Succeeds (site.gather gathered member.entry) state fun _ final =>
      Mirrors final.staged (seen ++ [member]) := by
  have unstaged {other : Member} (meant : member.meaning = other)
      (noFile : ∀ path, other ≠ .file path) : Mirrors state.staged (seen ++ [member]) :=
    mirrors.concat fun path file here => noFile path (meant.symm.trans (here.meaning file))
  unfold gather
  split <;> rename_i meant
  · exact succeeds_pure (unstaged meant nofun)
  · exact succeeds_pure (unstaged meant nofun)
  · split <;> exact succeeds_pure (unstaged meant nofun)
  · exact succeeds_gatherFile mirrors never room data inside meant (moded _ meant)

end Gather

end Layer

end ImageAudit
