import ImageAudit.Proofs.Layer.Scan
import ImageAudit.Proofs.Tar.Listing

/-! # The members that a scan takes

For an entry a scan reads no more than its data, and often less. So it meets the members that the
archive has for a reader that leaves all data alone, and what it finds out about the os-release
files are the changes that these members, each with its data, make one after the other.
-/

namespace ImageAudit

/-- What the member means for its layer. -/
def Tar.Listed.meaning (member : Tar.Listed) : Layer.Member :=
  Layer.Member.ofEntry member.entry.kind member.entry.path

namespace Layer

open Stateful
open Tar (Listed Reader)

/-- What an entry at a tracked path leaves there. -/
def updateOf (member : Listed) : OsReleaseUpdate :=
  match member.entry.kind with
  | .symbolicLink | .hardLink =>
    match member.entry.link? with
    | some target => .write (.link (Utf8.lossy target))
    | none => .remove
  | .regular => .write (.file (Utf8.lossy (member.data.take maxOsReleaseSize)))
  | _ => .remove

/-- The changes of the tracked paths after one more member. -/
def osReleaseAfter (changes : OsReleaseChanges) (member : Listed) : OsReleaseChanges :=
  match member.meaning with
  | .ignored => changes
  | .hides directory => changes.hideDirectory directory
  | .deletes path => ((OsReleasePath.ofPath? path).map (changes.record · .remove)).getD changes
  | .file path =>
    ((OsReleasePath.ofPath? path).map (changes.record · (updateOf member))).getD changes

/-- No tracked file belongs to a package database. -/
theorem isDatabaseFile_of_tracked {path : String} {tracked : OsReleasePath}
    (found : OsReleasePath.ofPath? path = some tracked) : Rpm.isDatabaseFile path = false := by
  unfold OsReleasePath.ofPath? at found
  split_ifs at found with etc usrLib
  · rw [etc]
    decide +kernel
  · rw [usrLib]
    decide +kernel

/-- Of the data of an entry so much was read, from the state before to the one after. -/
def ReadsData (entry : Tar.Entry) (state final : ScanState) : Prop :=
  ∃ count ≤ entry.size, ∃ read, Tar.Reading.take count state.reader = (.ok read, final.reader)

theorem readsData_of_eq {entry : Tar.Entry} {state final : ScanState}
    (same : final.reader = state.reader) : ReadsData entry state final :=
  ⟨0, Nat.zero_le _, [], by rw [same]; rfl⟩

section Steps

variable {site : ScanSite} {entry : Tar.Entry} {state final : ScanState}

theorem ScanSite.poll_eq_ok (ran : site.poll state = (.ok (), final)) : final = state := by
  obtain ⟨_, _, got, ran⟩ := bind_eq_ok_iff.mp ran
  cases got
  split at ran
  · cases ran
  · exact (pure_eq_ok_iff.mp ran).2.symm

theorem ScanSite.pollAt_eq_ok {number : Nat} (ran : site.pollAt number state = (.ok (), final)) :
    final = state := by
  unfold pollAt at ran
  split at ran
  · exact poll_eq_ok ran
  · exact (pure_eq_ok_iff.mp ran).2.symm

theorem Scanning.reading_eq_ok {α : Type} {failure : Tar.Fault → Failure} {step : Tar.Reading α}
    {value : α} (ran : reading failure step state = (.ok value, final)) :
    step state.reader = (.ok value, final.reader) := by
  obtain ⟨read, rfl⟩ := Prod.mk.inj ran
  exact Prod.ext (Fallible.mapError_eq_ok_iff.mp read) rfl

theorem Scanning.making_reader {α : Type} {failure : PathFault → Failure}
    {step : FileTree.Making α} {value : α}
    (ran : making failure step state = (.ok value, final)) : final.reader = state.reader := by
  obtain ⟨-, rfl⟩ := Prod.mk.inj ran
  rfl

theorem ScanSite.stage_reads {path : String} (ran : site.stage entry path state = (.ok (), final)) :
    ReadsData entry state final := by
  obtain ⟨⟨⟩, made, makes, ran⟩ := bind_eq_ok_iff.mp ran
  obtain ⟨content, between, reads, ran⟩ := bind_eq_ok_iff.mp ran
  refine ⟨min entry.size entry.size, Nat.min_le_left .., content, ?_⟩
  rw [Scanning.making_reader ran, ← Scanning.making_reader makes]
  exact Scanning.reading_eq_ok reads

theorem ScanSite.osReleaseUpdate_eq_ok {update : OsReleaseUpdate}
    (ran : site.osReleaseUpdate entry state = (.ok update, final)) :
    update = updateOf ⟨entry, state.reader.rest.take entry.size⟩ ∧ ReadsData entry state final := by
  unfold osReleaseUpdate at ran
  unfold updateOf
  cases kind : entry.kind with
  | regular =>
    rw [kind] at ran
    obtain ⟨content, between, reads, ran⟩ := bind_eq_ok_iff.mp ran
    obtain ⟨rfl, rfl⟩ := pure_eq_ok_iff.mp ran
    have taken := Scanning.reading_eq_ok reads
    refine ⟨?_, _, Nat.min_le_left .., content, taken⟩
    rw [(Tar.Reading.take_eq_ok taken).1, List.take_take, Nat.min_comm]
  | symbolicLink | hardLink =>
    rw [kind] at ran
    cases target : entry.link? with
    | none | some target =>
      rw [target] at ran
      obtain ⟨rfl, rfl⟩ := pure_eq_ok_iff.mp ran
      exact ⟨rfl, readsData_of_eq rfl⟩
  | _ =>
    rw [kind] at ran
    obtain ⟨rfl, rfl⟩ := pure_eq_ok_iff.mp ran
    exact ⟨rfl, readsData_of_eq rfl⟩

variable {gathered result : Gathered}

/-- A file at a tracked path is recorded with its data, and of that at most is read. -/
theorem ScanSite.gatherFile_eq_ok {path : String}
    (ran : site.gatherFile gathered entry path state = (.ok result, final)) :
    result.osRelease = ((OsReleasePath.ofPath? path).map (gathered.osRelease.record ·
      (updateOf ⟨entry, state.reader.rest.take entry.size⟩))).getD gathered.osRelease ∧
      ReadsData entry state final := by
  obtain ⟨mode, numbered, read, next⟩ := bind_eq_ok_iff.mp ran
  obtain ⟨-, rfl⟩ := Scanning.reading_need_eq_ok read
  split at next <;> rename_i database
  · obtain ⟨⟨⟩, polled, polls, next⟩ := bind_eq_ok_iff.mp next
    obtain ⟨⟨⟩, staged, stages, next⟩ := bind_eq_ok_iff.mp next
    obtain ⟨rfl, rfl⟩ := pure_eq_ok_iff.mp next
    rw [poll_eq_ok polls] at stages
    refine ⟨?_, stage_reads stages⟩
    cases tracked : OsReleasePath.ofPath? path with
    | none => rfl
    | some place =>
      rw [isDatabaseFile_of_tracked tracked] at database
      cases database.2
  · cases tracked : OsReleasePath.ofPath? path with
    | none =>
      rw [tracked] at next
      obtain ⟨rfl, rfl⟩ := pure_eq_ok_iff.mp next
      exact ⟨rfl, readsData_of_eq rfl⟩
    | some place =>
      rw [tracked] at next
      obtain ⟨update, updated, updates, next⟩ := bind_eq_ok_iff.mp next
      obtain ⟨rfl, rfl⟩ := pure_eq_ok_iff.mp next
      obtain ⟨rfl, reads⟩ := osReleaseUpdate_eq_ok updates
      exact ⟨rfl, reads⟩

/-- One entry makes the changes that it makes with its data, and of that at most is read. -/
theorem ScanSite.gather_eq_ok (ran : site.gather gathered entry state = (.ok result, final)) :
    result.osRelease =
        osReleaseAfter gathered.osRelease ⟨entry, state.reader.rest.take entry.size⟩ ∧
      ReadsData entry state final := by
  unfold gather at ran
  unfold osReleaseAfter Listed.meaning
  dsimp only
  cases meant : Member.ofEntry entry.kind entry.path with
  | ignored | hides directory =>
    rw [meant] at ran
    obtain ⟨rfl, rfl⟩ := pure_eq_ok_iff.mp ran
    exact ⟨rfl, readsData_of_eq rfl⟩
  | deletes path =>
    rw [meant] at ran
    dsimp only at ran ⊢
    cases tracked : OsReleasePath.ofPath? path with
    | none | some place =>
      rw [tracked] at ran
      obtain ⟨rfl, rfl⟩ := pure_eq_ok_iff.mp ran
      exact ⟨rfl, readsData_of_eq rfl⟩
  | file path =>
    rw [meant] at ran
    exact gatherFile_eq_ok ran

/-- A run takes the members that a reader meets that skips all data. -/
theorem ScanSite.Run.members {stream : ByteStream} {reader : Reader} {number : Nat}
    {entries : List Tar.Entry} (run : site.Run number gathered state entries result final)
    (agree : Reader.Agree stream state.reader reader) :
    ∃ members, reader.Lists members ∧ members.map Listed.entry = entries ∧
      result.osRelease = members.foldl osReleaseAfter gathered.osRelease := by
  induction run generalizing reader with
  | ended read =>
    have ended := Tar.next?_congr agree (Scanning.outcome_of_attempt read)
    exact ⟨[], .ended ended, rfl, rfl⟩
  | entry read goesOn gathers rest ih =>
    have opens := Scanning.outcome_of_attempt read
    have reads := (Tar.keptByReading_reads stream).next? agree.reads opens
    have room := Tar.hasRoom_of_next? agree.reads agree.reached opens
    obtain rfl := pollAt_eq_ok goesOn
    obtain ⟨changes, count, few, _, taken⟩ := gather_eq_ok gathers
    obtain ⟨members, lists, rfl, osRelease⟩ := ih (room.agree reads few taken)
    refine ⟨_, .entry (Tar.next?_congr agree opens) lists, rfl, ?_⟩
    rw [List.foldl_cons, osRelease, changes]

end Steps

/-- What a scan gives is what the members of the archive make of it. -/
theorem exists_members {site : ScanSite} {stream : ByteStream} {staged left : FileTree}
    {contents : LayerContents} (scanned : scan site stream staged = (.ok contents, left)) :
    ∃ members, (Reader.new stream).Lists members ∧
      contents.changed = (members.map Listed.entry).foldl changedAfter ∅ ∧
      contents.osRelease = members.foldl osReleaseAfter .empty := by
  obtain ⟨entries, scans⟩ := exists_scans scanned
  obtain ⟨gathered, final, run, decoded⟩ := id scans
  have fresh := Reader.reads_new stream
  obtain ⟨members, lists, rfl, osRelease⟩ :=
    run.members ⟨fresh, fresh, rfl, Nat.le_refl _, Nat.le_refl _⟩
  refine ⟨members, lists, scans.changed, ?_⟩
  rw [(ScanSite.decode_eq_ok decoded).2, osRelease]
  rfl

end Layer

end ImageAudit
