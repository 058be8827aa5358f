import ImageAudit.Proofs.Fixture.Layer
import ImageAudit.Proofs.Layer.Staged
import ImageAudit.Proofs.Rpm.DatabaseRoundTrip
import Mathlib.Data.List.Find

/-! # The package database of a layer

A layer has a package database where its archive has a regular file at one of the locations, however
the path is spelled and whatever comes before or after it. A scan decodes the one at the first such
location, from the data of the last regular files at its paths, or fails as decoding it does; it is
never passed over.
-/

namespace ImageAudit.Layer

open FileTree Stateful
open Rpm (databasePaths)
open Tar (Listed Reader)

section Run

variable {site : ScanSite} {stream : ByteStream} {reader : Reader} {members seen : List Listed}
  {state : ScanState} {gathered : Gathered} {fuel number : Nat}

/-- A scan that is not told to stop gathers an entry and goes on behind it. -/
theorem ScanSite.gatherFrom_entry (never : site.signal = .never) {entry : Tar.Entry}
    {opened : Reader} (read : Tar.next? state.reader = (.ok (some entry), opened)) :
    site.gatherFrom (fuel + 1) number gathered state =
      (site.gather gathered entry >>= site.gatherFrom fuel (number + 1))
        ⟨opened, state.staged⟩ := by
  have attempted : Scanning.attempt Tar.next? state =
      (.ok (.ok (some entry)), ⟨opened, state.staged⟩) := by
    simp only [Scanning.attempt, read]
  rw [gatherFrom_of_entry attempted, bind_apply, pollAt_apply never]

/-- One more member of the archive is gathered. The reader has read of its data at most, so that it
meets the same members behind it. -/
theorem ScanSite.succeeds_gather_listed (never : site.signal = .never)
    (room : HasRoom site.directory Rpm.databaseRoom) {entry : Tar.Entry} {opened : Reader}
    (read : Tar.next? reader = (.ok (some entry), opened)) (rest : opened.Lists members)
    (reads : reader.Reads stream) (reached : reader.position ≤ reader.nextHeader)
    {staged : FileTree} (mirrors : Mirrors staged seen)
    (moded : HasMode ⟨entry, opened.rest.take entry.size⟩) :
    Succeeds (site.gather gathered entry) ⟨opened, staged⟩ fun _ final =>
      Mirrors final.staged (seen ++ [⟨entry, opened.rest.take entry.size⟩]) ∧
        Reader.Agree stream opened final.reader ∧ final.left ≤ opened.left := by
  have reads' := (Tar.keptByReading_reads stream).next? reads read
  have hasRoom := Tar.hasRoom_of_next? reads reached read
  have gathers : Succeeds (site.gather gathered entry) ⟨opened, staged⟩ fun _ final =>
      Mirrors final.staged (seen ++ [⟨entry, opened.rest.take entry.size⟩]) :=
    succeeds_gather mirrors never room rfl (rest.le_length reads' hasRoom) moded
  obtain ⟨result, final, ran, mirrors'⟩ := gathers
  obtain ⟨-, count, few, _, taken⟩ := gather_eq_ok ran
  exact ⟨result, final, ran, mirrors', (hasRoom.agree reads' few taken).symm,
    (site.lowers_gather gathered entry).le ran⟩

/-- What the scan of the members that an archive still has comes to: all are taken, and the files of
a database are set aside, or the scan ends at the first file whose mode cannot be read. -/
theorem ScanSite.gatherFrom_of_lists (never : site.signal = .never)
    (room : HasRoom site.directory Rpm.databaseRoom) (lists : reader.Lists members)
    (agree : Reader.Agree stream reader state.reader) (mirrors : Mirrors state.staged seen)
    (enough : state.left < fuel * Tar.blockSize) :
    (∀ member ∈ members, HasMode member) ∧
        Succeeds (site.gatherFrom fuel number gathered) state (fun _ final =>
          Mirrors final.staged (seen ++ members)) ∨
      (∃ member ∈ members, ¬ HasMode member) ∧ ∃ final,
        site.gatherFrom fuel number gathered state =
          (.error (site.unreadable .number), final) := by
  induction lists generalizing state seen gathered fuel number with
  | @ended reader final read =>
    cases fuel with
    | zero => omega
    | succ fuel =>
      have attempted : Scanning.attempt Tar.next? state =
          (.ok (.ok none), ⟨final, state.staged⟩) := by
        simp only [Scanning.attempt, Tar.next?_congr agree read]
      refine .inl ⟨nofun, succeeds_bind_of_eq attempted (succeeds_pure ?_)⟩
      rw [List.append_nil]
      exact mirrors
  | @entry reader opened entry members read rest ih =>
    cases fuel with
    | zero => omega
    | succ fuel =>
      have ran := Tar.next?_congr agree read
      have opens : opened.left + Tar.blockSize ≤ state.left := Tar.left_of_next? ran
      rw [gatherFrom_entry never ran]
      by_cases moded : HasMode ⟨entry, opened.rest.take entry.size⟩
      · obtain ⟨result, final, gathers, mirrors, agree, lowers⟩ :=
          succeeds_gather_listed never room read rest agree.reads agree.reached mirrors moded
        have enough : final.left < fuel * Tar.blockSize := by
          rw [Nat.succ_mul] at enough
          omega
        rw [bind_apply, gathers]
        rcases ih agree mirrors enough with ⟨all, value, last, ends, mirrors⟩ | ⟨some, last, fails⟩
        · refine .inl ⟨List.forall_mem_cons.mpr ⟨moded, all⟩, value, last, ?_, ?_⟩
          · rw [gatherFrom_entry never ran, bind_apply, gathers]
            exact ends
          · rw [List.append_cons]
            exact mirrors
        · obtain ⟨member, inside, noMode⟩ := some
          exact .inr ⟨⟨member, List.mem_cons_of_mem _ inside, noMode⟩, last, fails⟩
      · refine .inr ⟨⟨_, List.mem_cons_self .., moded⟩, ⟨opened, state.staged⟩, ?_⟩
        rw [bind_apply, gather_of_not_hasMode moded]

/-- So does the scan of a whole archive. -/
theorem ScanSite.gatherAll_of_lists (never : site.signal = .never)
    (room : HasRoom site.directory Rpm.databaseRoom) (lists : (Reader.new stream).Lists members) :
    (∀ member ∈ members, HasMode member) ∧
        Succeeds (site.gatherAll stream) ⟨Reader.new stream, .empty⟩ (fun _ final =>
          Mirrors final.staged members) ∨
      (∃ member ∈ members, ¬ HasMode member) ∧ ∃ final,
        site.gatherAll stream ⟨Reader.new stream, .empty⟩ =
          (.error (site.unreadable .number), final) := by
  have fresh := Reader.reads_new stream
  exact site.gatherFrom_of_lists never room lists
    ⟨fresh, fresh, rfl, Nat.le_refl _, Nat.le_refl _⟩ mirrors_empty
    (ScanState.left_new_lt stream .empty)

end Run

section Decode

variable {site : ScanSite} {members : List Listed} {staged : FileTree} {gathered : Gathered}
  {location : Rpm.DatabaseLocation}

/-- Where an archive has a database: the first location at which it has a regular file. -/
def locationIn? (members : List Listed) : Option Rpm.DatabaseLocation :=
  Rpm.databaseLocations.find? fun location =>
    members.any fun member => IsRegularAt location.path member

/-- The files of a database in an archive: the last regular file at its path, and, where the format
has a log, the last one at the path of the log. -/
def filesIn (members : List Listed) (location : Rpm.DatabaseLocation) : Rpm.DatabaseFiles where
  main := (lastData? members location.path).getD []
  log := if location.format = .sqlite then
      (lastData? members (Rpm.logPath location.path)).getD []
    else []

theorem path_mem_databasePaths (listed : location ∈ Rpm.databaseLocations) :
    location.path ∈ databasePaths := by
  revert location
  decide

/-- Only a table database has a log. -/
theorem log_mem_databasePaths (listed : location ∈ Rpm.databaseLocations)
    (format : location.format = .sqlite) : Rpm.logPath location.path ∈ databasePaths := by
  revert location
  decide

/-- What is set aside is decoded as what the archive has. -/
theorem Mirrors.readPackages (mirrors : Mirrors staged members)
    (listed : location ∈ Rpm.databaseLocations) (path : String) :
    Rpm.readPackages path location.format (ScanSite.databaseFiles staged location.path) =
      Rpm.readPackages path location.format (filesIn members location) := by
  rw [ScanSite.databaseFiles, filesIn, mirrors.content? (path_mem_databasePaths listed)]
  cases format : location.format with
  | sqlite => rw [if_pos rfl, mirrors.content? (log_mem_databasePaths listed format)]
  | berkeleyDb => rfl

theorem Mirrors.findDatabase? (mirrors : Mirrors staged members)
    (room : HasRoom site.directory Rpm.databaseRoom) :
    Rpm.findDatabase? (site.holds staged) = locationIn? members := by
  unfold Rpm.findDatabase? locationIn?
  refine List.find?_congr fun location listed => ?_
  have file := path_mem_databasePaths listed
  have stageable := isStageable_of_mem file
  have roomPath : HasRoom (Path.below site.directory location.path) 0 :=
    (room.of_le (by have := stageable.short.1; omega)).below stageable.noZero.1
  rw [ScanSite.holds, roomPath.components?, isFile, mirrors.content? file, isSome_lastData?]
  rfl

/-- What goes wrong with a database is told with its path. -/
theorem exists_of_readPackages {path : String} {format : Rpm.DatabaseFormat}
    {files : Rpm.DatabaseFiles} {failure : Failure}
    (failed : Rpm.readPackages path format files = .error failure) :
    ∃ cause, failure = .database path cause := by
  rcases Fallible.bind_eq_error_iff.mp failed with unread | ⟨headers, -, unsound⟩
  · obtain ⟨cause, -, told⟩ := Fallible.mapError_eq_error_iff.mp unread
    exact ⟨cause, told.symm⟩
  · obtain ⟨cause, -, told⟩ := Fallible.mapError_eq_error_iff.mp unsound
    exact ⟨cause, told.symm⟩

/-- What is told of the database of an archive: none where there is none; otherwise its location
and its packages, or the failure to decode it. -/
def TellsDatabase (site : ScanSite) (members : List Listed)
    (outcome : Except Failure LayerContents) : Prop :=
  match locationIn? members with
  | none => ∃ contents, outcome = .ok contents ∧
      contents.database = none ∧ contents.packages = none
  | some location =>
    let path := Path.below site.directory location.path
    match Rpm.readPackages path location.format (filesIn members location) with
    | .ok packages => ∃ contents, outcome = .ok contents ∧
        contents.database = some location ∧ contents.packages = some packages
    | .error failure => outcome = .error failure ∧ ∃ cause, failure = .database path cause

theorem Mirrors.tellsDatabase (mirrors : Mirrors staged members)
    (room : HasRoom site.directory Rpm.databaseRoom) :
    TellsDatabase site members (site.decode gathered staged) := by
  unfold TellsDatabase ScanSite.decode
  rw [mirrors.findDatabase? room]
  cases found : locationIn? members with
  | none => exact ⟨_, rfl, rfl, rfl⟩
  | some location =>
    dsimp only
    rw [mirrors.readPackages (List.mem_of_find?_eq_some found)]
    cases read : Rpm.readPackages (Path.below site.directory location.path) location.format
      (filesIn members location) with
    | ok packages => exact ⟨_, rfl, rfl, rfl⟩
    | error failure => exact ⟨rfl, exists_of_readPackages read⟩

end Decode

/-- When an archive can be read to its end, every file of a database is set aside with the data of
the last regular file at its path, and the database at the first location with a regular file is
decoded: the scan tells its location and just its packages, or fails as decoding it does. Without
such a file it tells neither. Only a file whose mode cannot be read ends the scan before. -/
theorem scan_database {site : ScanSite} {stream : ByteStream} {members : List Listed}
    (lists : (Reader.new stream).Lists members) (never : site.signal = .never)
    (room : HasRoom site.directory Rpm.databaseRoom) :
    ((∃ member ∈ members, ¬ HasMode member) →
      (scan site stream .empty).1 = .error (site.unreadable .number)) ∧
    ((∀ member ∈ members, HasMode member) →
      (∀ path ∈ databasePaths,
        (scan site stream .empty).2.content? path = lastData? members path) ∧
      TellsDatabase site members (scan site stream .empty).1) := by
  rcases site.gatherAll_of_lists never room lists with
    ⟨all, gathered, final, ran, mirrors⟩ | ⟨⟨member, inside, noMode⟩, final, fails⟩
  · have scanned : scan site stream .empty =
        (site.decode gathered final.staged, final.staged) := by
      unfold scan
      rw [ran]
      rfl
    rw [scanned]
    refine ⟨fun ⟨member, inside, noMode⟩ => absurd (all member inside) noMode, fun _ => ⟨?_, ?_⟩⟩
    · exact fun path file => mirrors.content? file
    · exact mirrors.tellsDatabase room
  · have scanned : (scan site stream .empty).1 = .error (site.unreadable .number) := by
      unfold scan
      rw [fails]
      rfl
    exact ⟨fun _ => scanned, fun all => absurd (all member inside) noMode⟩

section Sample

open Fixture (LayerEntry archive)

/-- The content of the last regular file that a layer is described to have at a path. -/
def lastContent? (entries : List LayerEntry) (path : String) : Option Bytes :=
  (entries.filter fun entry =>
    entry.kind = .regular ∧ Path.normalize entry.path = path).getLast?.map LayerEntry.content

theorem lastData?_of_isRead {entries : List LayerEntry} {members : List Listed}
    (areRead : List.Forall₂ LayerEntry.IsRead entries members) (path : String) :
    lastData? members path = lastContent? entries path := by
  have last : Option.Rel LayerEntry.IsRead
      (entries.filter fun entry =>
        entry.kind = .regular ∧ Path.normalize entry.path = path).getLast?
      (members.filter fun member => IsRegularAt path member).getLast? := by
    rw [List.getLast?_filter, List.getLast?_filter]
    refine Fallible.rel_find? (List.rel_reverse areRead) fun entry member isRead => ?_
    simp only [IsRegularAt, isRead.kind, isRead.path]
  rw [lastData?, lastContent?]
  generalize (entries.filter _).getLast? = entry at last ⊢
  generalize (members.filter _).getLast? = member at last ⊢
  cases last with
  | none => rfl
  | some isRead => exact congrArg some isRead.data

/-- A database without packages, over a file that is none. Their path is spelled in two ways, and
at the path that comes first there is only a link. -/
def databaseEntries : List LayerEntry :=
  [.hardLink "var/lib/rpm/rpmdb.sqlite" "var/lib/rpm/Packages",
    .file "./var//lib/rpm/Packages" 0o644 [0x41],
    .file "var/lib/rpm/Packages" 0o644 (Rpm.HashFile.Writer.sampleWriter.encode []),
    .whiteout "var/lib/rpm/Packages"]

/-- A database without packages is told as well. -/
theorem scan_database_sample : ∃ members contents,
    (Reader.new (.ofBytes (archive databaseEntries))).Lists members ∧
      (∀ member ∈ members, HasMode member) ∧ Fixture.sampleSite.signal = .never ∧
      HasRoom Fixture.sampleSite.directory Rpm.databaseRoom ∧
      (scan Fixture.sampleSite (.ofBytes (archive databaseEntries)) .empty).1 = .ok contents ∧
      contents.database = some ⟨"var/lib/rpm/Packages", .berkeleyDb⟩ ∧
      contents.packages = some [] := by
  have fresh := Reader.reads_new (.ofBytes (archive databaseEntries))
  have short : (archive databaseEntries).length < 2 ^ 63 := by decide +kernel
  obtain ⟨members, lists, areRead, moded⟩ := LayerEntry.exists_lists short
    ⟨fresh, Nat.le_refl _, Nat.zero_le _, rfl⟩
  have hasMode : ∀ member ∈ members, HasMode member := fun member inside _ _ => moded member inside
  have room : HasRoom Fixture.sampleSite.directory Rpm.databaseRoom :=
    ⟨by decide +kernel, by decide +kernel⟩
  obtain ⟨-, tells⟩ := (scan_database lists rfl room).2 hasMode
  have located : locationIn? members = some ⟨"var/lib/rpm/Packages", .berkeleyDb⟩ := by
    unfold locationIn?
    simp only [← isSome_lastData?, lastData?_of_isRead areRead]
    decide +kernel
  have files : filesIn members ⟨"var/lib/rpm/Packages", .berkeleyDb⟩ =
      ⟨Rpm.HashFile.Writer.sampleWriter.encode [], []⟩ := by
    simp only [filesIn, lastData?_of_isRead areRead]
    decide +kernel
  have holds : Rpm.HashFile.Writer.sampleWriter.CanHold [] :=
    ⟨⟨9, by decide, by decide, rfl⟩, by decide, by decide +kernel, by decide +kernel⟩
  have read : Rpm.readPackages (Path.below Fixture.sampleSite.directory "var/lib/rpm/Packages")
      .berkeleyDb ⟨Rpm.HashFile.Writer.sampleWriter.encode [], []⟩ = .ok [] := by
    rw [Rpm.readPackages, Rpm.readHeadersAt, Rpm.readHeaders, holds.readValues_encode]
    rfl
  simp only [TellsDatabase, located, files, read] at tells
  obtain ⟨contents, scanned, database, packages⟩ := tells
  exact ⟨members, contents, lists, hasMode, rfl, room, scanned, database, packages⟩

end Sample

end ImageAudit.Layer
