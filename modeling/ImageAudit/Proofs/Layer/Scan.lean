import ImageAudit.Layer.Scan
import ImageAudit.Proofs.Fallible
import ImageAudit.Proofs.Path
import ImageAudit.Proofs.Tar.Progress
import Std.Data.TreeMap.Lemmas

/-! # What a scan gathers

A scan takes one entry after another. An entry that is a file puts its path among the changed files,
with the permissions in its header; any other entry leaves them as they are. So the changed files of
a scan are those of its entries, the later entry for a path in place of the earlier one. As every
entry takes a block of the archive, a scan that does not fail takes them all.
-/

namespace ImageAudit.Layer

open Stateful

/-- A path is that of a file unless it is the top or the root, or its last component is a marker. -/
theorem Member.ofPath_eq_file_iff {path file : String} :
    Member.ofPath path = .file file ↔ path = file ∧ path ≠ "." ∧ path ≠ "/" ∧
      Text.startsWith (Path.parentAndName path).2 whiteoutStart = false := by
  unfold Member.ofPath
  by_cases neither : path = "." ∨ path = "/"
  · rw [if_pos neither]
    exact ⟨nofun, fun proper => (neither.elim proper.2.1 proper.2.2.1).elim⟩
  · rw [if_neg neither]
    obtain ⟨notTop, notRoot⟩ := not_or.mp neither
    by_cases isOpaque : (Path.parentAndName path).2 = opaqueMarker
    · have marks : Text.startsWith opaqueMarker whiteoutStart = true := by decide +kernel
      simp [isOpaque, marks]
    · cases marks : Text.startsWith (Path.parentAndName path).2 whiteoutStart <;>
        simp [isOpaque, Text.stripStart?, marks, notTop, notRoot]

/-- A path that ends in a proper name is a file unless the name is that of a marker. -/
theorem Member.ofPath_join (segments : List Path.Segment) {name : Path.Segment}
    (proper : Path.IsName name) (notMarker : ¬ whiteoutStart.toList <+: name) :
    Member.ofPath (String.ofList (Path.join (segments ++ [name]))) =
      .file (String.ofList (Path.join (segments ++ [name]))) := by
  have parts := Path.parentAndName_join segments proper.noSlash
  generalize String.ofList (Path.join (segments ++ [name])) = path at parts
  have named {parent last : String} (same : (parent, last) = Path.parentAndName path) :
      last.toList = name := by
    rw [parts] at same
    rw [(Prod.mk.inj same).2, String.toList_ofList]
  refine Member.ofPath_eq_file_iff.mpr ⟨rfl, ?_, ?_, ?_⟩
  · rintro rfl
    exact proper.notHere (named rfl).symm
  · rintro rfl
    exact proper.notEmpty (named rfl).symm
  · rw [parts, Text.startsWith, ← Bool.not_eq_true, List.isPrefixOf_iff_prefix,
      String.toList_ofList]
    exact notMarker

def IsFileAt (path : String) (entry : Tar.Entry) : Prop :=
  Member.ofEntry entry.kind entry.path = .file path

instance (path : String) (entry : Tar.Entry) : Decidable (IsFileAt path entry) :=
  inferInstanceAs (Decidable (_ = _))

/-- What an entry leaves at its path. -/
def fileRecord (path : String) (entry : Tar.Entry) : FileRecord :=
  ⟨path, FileMode.permissions (entry.header.mode?.getD 0)⟩

def changedAfter (changed : PathMap FileRecord) (entry : Tar.Entry) : PathMap FileRecord :=
  match Member.ofEntry entry.kind entry.path with
  | .file path => changed.insert path (fileRecord path entry)
  | _ => changed

theorem getElem?_changedAfter (changed : PathMap FileRecord) (entry : Tar.Entry) (path : String) :
    (changedAfter changed entry)[path]? =
      if IsFileAt path entry then some (fileRecord path entry) else changed[path]? := by
  unfold changedAfter
  by_cases isFile : IsFileAt path entry
  · have meant : Member.ofEntry entry.kind entry.path = .file path := isFile
    rw [if_pos isFile, meant, Std.TreeMap.getElem?_insert_self]
  · rw [if_neg isFile]
    cases meant : Member.ofEntry entry.kind entry.path with
    | file other =>
      have elsewhere : compare other path ≠ .eq := by
        intro same
        rw [Std.LawfulEqOrd.eq_of_compare same] at meant
        exact isFile meant
      rw [Std.TreeMap.getElem?_insert, if_neg elsewhere]
    | _ => rfl

/-- The last entry that is a file at a path decides what is there. -/
theorem getElem?_foldl_changedAfter (entries : List Tar.Entry) (changed : PathMap FileRecord)
    (path : String) :
    (entries.foldl changedAfter changed)[path]? =
      ((entries.reverse.find? (IsFileAt path)).map (fileRecord path)).or changed[path]? := by
  induction entries generalizing changed with
  | nil => rfl
  | cons entry entries ih =>
    rw [List.foldl_cons, ih, getElem?_changedAfter, List.reverse_cons, List.find?_append]
    cases entries.reverse.find? (IsFileAt path) with
    | some later => rfl
    | none => by_cases here : IsFileAt path entry <;> simp [here]

section Progress

/-- How many bytes of the archive are left to be read. -/
def ScanState.left (state : ScanState) : Nat := state.reader.left

/-- A scan of a whole archive has fuel for more blocks than there are. -/
theorem ScanState.left_new_lt (stream : ByteStream) (staged : FileTree) :
    (ScanState.mk (Tar.Reader.new stream) staged).left <
      (stream.content.length / Tar.blockSize + 1) * Tar.blockSize := by
  rw [Nat.mul_comm]
  exact Nat.lt_mul_div_succ _ (by decide)

namespace Scanning

variable {α : Type}

theorem lowers_reading {step : Tar.Reading α} (lowers : Lowers Tar.Reader.left step)
    (failure : Tar.Fault → Failure) : Lowers ScanState.left (reading failure step) := by
  refine lowers_of_le fun state value final ran => ?_
  obtain ⟨read, rfl⟩ := Prod.mk.inj ran
  exact lowers.le (Prod.ext (Fallible.mapError_eq_ok_iff.mp read) rfl)

theorem lowers_making (failure : PathFault → Failure) (step : FileTree.Making α) :
    Lowers ScanState.left (making failure step) := by
  refine lowers_of_le fun state value final ran => ?_
  obtain ⟨-, rfl⟩ := Prod.mk.inj ran
  exact Nat.le_refl _

/-- Needing a value reads nothing. -/
theorem reading_need_eq_ok {failure : Tar.Fault → Failure} {fault : Tar.Fault} {value? : Option α}
    {value : α} {state final : ScanState}
    (ran : reading failure (Tar.Reading.need fault value?) state = (.ok value, final)) :
    value? = some value ∧ final = state := by
  cases value? with
  | none => cases ran
  | some found =>
    cases ran
    exact ⟨rfl, rfl⟩

theorem outcome_of_attempt {step : Tar.Reading α} {state final : ScanState}
    {outcome : Except Tar.Fault α} (ran : attempt step state = (.ok outcome, final)) :
    step state.reader = (outcome, final.reader) := by
  cases ran
  rfl

/-- An entry takes a block of the archive at least. -/
theorem left_of_attempt {state final : ScanState} {entry : Tar.Entry}
    (ran : attempt Tar.next? state = (.ok (.ok (some entry)), final)) :
    final.left + Tar.blockSize ≤ state.left := by
  exact Tar.left_of_next? (outcome_of_attempt ran)

end Scanning

namespace ScanSite

variable (site : ScanSite)

theorem lowers_poll : Lowers ScanState.left site.poll := by
  refine lowers_get.bind fun state => ?_
  split
  · exact lowers_throw _
  · exact lowers_pure _

theorem lowers_pollAt (number : Nat) : Lowers ScanState.left (site.pollAt number) := by
  unfold pollAt
  split
  · exact site.lowers_poll
  · exact lowers_pure _

theorem lowers_stage (entry : Tar.Entry) (path : String) :
    Lowers ScanState.left (site.stage entry path) :=
  (Scanning.lowers_making ..).bind fun _ =>
    (Scanning.lowers_reading (Tar.Reading.lowers_take _) _).bind fun _ => Scanning.lowers_making ..

theorem lowers_osReleaseUpdate (entry : Tar.Entry) :
    Lowers ScanState.left (site.osReleaseUpdate entry) := by
  unfold osReleaseUpdate
  split
  · split <;> exact lowers_pure _
  · split <;> exact lowers_pure _
  · exact (Scanning.lowers_reading (Tar.Reading.lowers_take _) _).bind fun _ => lowers_pure _
  · exact lowers_pure _

theorem lowers_gatherFile (gathered : Gathered) (entry : Tar.Entry) (path : String) :
    Lowers ScanState.left (site.gatherFile gathered entry path) := by
  refine (Scanning.lowers_reading (Tar.lowers_need ..) _).bind fun mode => ?_
  dsimp only
  split
  · exact site.lowers_poll.bind fun _ => (site.lowers_stage entry path).bind fun _ => lowers_pure _
  · split
    · exact (site.lowers_osReleaseUpdate entry).bind fun _ => lowers_pure _
    · exact lowers_pure _

theorem lowers_gather (gathered : Gathered) (entry : Tar.Entry) :
    Lowers ScanState.left (site.gather gathered entry) := by
  unfold gather
  split
  · exact lowers_pure _
  · exact lowers_pure _
  · split <;> exact lowers_pure _
  · exact site.lowers_gatherFile gathered entry _

end ScanSite

end Progress

namespace ScanSite

variable {site : ScanSite} {gathered result : Gathered} {entry : Tar.Entry}
variable {state final : ScanState}

theorem gatherFrom_of_entry
    (read : Scanning.attempt Tar.next? state = (.ok (.ok (some entry)), final))
    (fuel number : Nat) :
    site.gatherFrom (fuel + 1) number gathered state =
      (site.pollAt number >>= fun _ => site.gather gathered entry >>=
        site.gatherFrom fuel (number + 1)) final := by
  rw [gatherFrom, bind_apply, read]

theorem gatherFrom_of_fault {fault : Tar.Fault}
    (read : Scanning.attempt Tar.next? state = (.ok (.error fault), final)) (fuel number : Nat) :
    site.gatherFrom (fuel + 1) number gathered state =
      (site.pollAt number >>= fun _ => throw (site.unreadable fault)) final := by
  rw [gatherFrom, bind_apply, read]

theorem gatherFile_changed {path : String}
    (ran : site.gatherFile gathered entry path state = (.ok result, final)) :
    result.changed = gathered.changed.insert path (fileRecord path entry) := by
  obtain ⟨mode, between, read, ran⟩ := bind_eq_ok_iff.mp ran
  rw [fileRecord, (Scanning.reading_need_eq_ok read).1, Option.getD_some]
  split at ran
  · obtain ⟨_, _, -, ran⟩ := bind_eq_ok_iff.mp ran
    obtain ⟨_, _, -, ran⟩ := bind_eq_ok_iff.mp ran
    obtain ⟨rfl, -⟩ := pure_eq_ok_iff.mp ran
    rfl
  · cases tracked : OsReleasePath.ofPath? path with
    | none =>
      rw [tracked] at ran
      obtain ⟨rfl, -⟩ := pure_eq_ok_iff.mp ran
      rfl
    | some place =>
      rw [tracked] at ran
      obtain ⟨_, _, -, ran⟩ := bind_eq_ok_iff.mp ran
      obtain ⟨rfl, -⟩ := pure_eq_ok_iff.mp ran
      rfl

/-- One entry changes the changed files as its meaning says. -/
theorem gather_changed (ran : site.gather gathered entry state = (.ok result, final)) :
    result.changed = changedAfter gathered.changed entry := by
  unfold gather at ran
  unfold changedAfter
  cases meant : Member.ofEntry entry.kind entry.path with
  | ignored =>
    rw [meant] at ran
    obtain ⟨rfl, -⟩ := pure_eq_ok_iff.mp ran
    rfl
  | hides directory =>
    rw [meant] at ran
    obtain ⟨rfl, -⟩ := pure_eq_ok_iff.mp ran
    rfl
  | deletes path =>
    rw [meant] at ran
    dsimp only at ran
    cases tracked : OsReleasePath.ofPath? path with
    | none =>
      rw [tracked] at ran
      obtain ⟨rfl, -⟩ := pure_eq_ok_iff.mp ran
      rfl
    | some place =>
      rw [tracked] at ran
      obtain ⟨rfl, -⟩ := pure_eq_ok_iff.mp ran
      rfl
  | file path =>
    rw [meant] at ran
    exact gatherFile_changed ran

/-- From the entry with the given number on, a scan takes these entries, which are all that the
archive has left, and ends with what it has gathered then. -/
inductive Run (site : ScanSite) :
    Nat → Gathered → ScanState → List Tar.Entry → Gathered → ScanState → Prop where
  /-- The archive ends. -/
  | ended {number : Nat} {gathered : Gathered} {state final : ScanState}
      (read : Scanning.attempt Tar.next? state = (.ok (.ok none), final)) :
      Run site number gathered state [] gathered final
  /-- One more entry. -/
  | entry {number : Nat} {gathered next result : Gathered}
      {state opened polled between final : ScanState} {entry : Tar.Entry}
      {entries : List Tar.Entry}
      (read : Scanning.attempt Tar.next? state = (.ok (.ok (some entry)), opened))
      (goesOn : site.pollAt number opened = (.ok (), polled))
      (gathers : site.gather gathered entry polled = (.ok next, between))
      (rest : Run site (number + 1) next between entries result final) :
      Run site number gathered state (entry :: entries) result final

/-- A scan that does not fail is a run, where the fuel is more than the blocks left. -/
theorem exists_run {fuel number : Nat} (enough : state.left < fuel * Tar.blockSize)
    (ran : site.gatherFrom fuel number gathered state = (.ok result, final)) :
    ∃ entries, site.Run number gathered state entries result final := by
  induction fuel generalizing number gathered state with
  | zero => omega
  | succ fuel ih =>
    obtain ⟨outcome, opened, read, ran⟩ := bind_eq_ok_iff.mp ran
    match outcome with
    | .ok none =>
      obtain ⟨rfl, rfl⟩ := pure_eq_ok_iff.mp ran
      exact ⟨[], .ended read⟩
    | .ok (some entry) =>
      obtain ⟨⟨⟩, polled, goesOn, ran⟩ := bind_eq_ok_iff.mp ran
      obtain ⟨next, between, gathers, ran⟩ := bind_eq_ok_iff.mp ran
      have opens := Scanning.left_of_attempt read
      have polls := (site.lowers_pollAt number).le goesOn
      have gathered := (site.lowers_gather _ _).le gathers
      rw [Nat.succ_mul] at enough
      obtain ⟨entries, rest⟩ := ih (by omega) ran
      exact ⟨entry :: entries, .entry read goesOn gathers rest⟩
    | .error fault =>
      obtain ⟨_, _, _, ran⟩ := bind_eq_ok_iff.mp ran
      cases ran

/-- A run changes the changed files as its entries do, one after the other. -/
theorem Run.changed {number : Nat} {entries : List Tar.Entry}
    (run : site.Run number gathered state entries result final) :
    result.changed = entries.foldl changedAfter gathered.changed := by
  induction run with
  | ended => rfl
  | entry _ _ gathers _ ih => rw [List.foldl_cons, ih, gather_changed gathers]

/-- Decoding the database leaves what was gathered. -/
theorem decode_eq_ok {staged : FileTree} {contents : LayerContents}
    (decoded : site.decode gathered staged = .ok contents) :
    contents.changed = gathered.changed ∧ contents.osRelease = gathered.osRelease := by
  unfold decode at decoded
  split at decoded
  · cases decoded
    exact ⟨rfl, rfl⟩
  · obtain ⟨packages, -, decoded⟩ := Fallible.bind_eq_ok_iff.mp decoded
    cases decoded
    exact ⟨rfl, rfl⟩

end ScanSite

/-- A scan of the stream takes these entries, all that the archive has, and gives these contents. -/
def Scans (site : ScanSite) (stream : ByteStream) (staged : FileTree) (entries : List Tar.Entry)
    (contents : LayerContents) : Prop :=
  ∃ gathered final,
    site.Run 0 .empty ⟨Tar.Reader.new stream, staged⟩ entries gathered final ∧
    site.decode gathered final.staged = .ok contents

section Scan

variable {site : ScanSite} {stream : ByteStream} {staged left : FileTree}
variable {contents : LayerContents}

theorem exists_scans (scanned : scan site stream staged = (.ok contents, left)) :
    ∃ entries, Scans site stream staged entries contents := by
  unfold scan at scanned
  cases ran : site.gatherAll stream ⟨Tar.Reader.new stream, staged⟩ with
  | mk outcome final =>
    rw [ran] at scanned
    cases outcome with
    | error failure => cases scanned
    | ok gathered =>
      obtain ⟨entries, run⟩ := ScanSite.exists_run (ScanState.left_new_lt stream staged) ran
      exact ⟨entries, gathered, final, run, (Prod.mk.inj scanned).1⟩

/-- The first entry of the archive is among them. -/
theorem Scans.mem_of_next? {entries : List Tar.Entry}
    (scans : Scans site stream staged entries contents) {entry : Tar.Entry}
    (first : (Tar.next? (Tar.Reader.new stream)).1 = .ok (some entry)) : entry ∈ entries := by
  obtain ⟨_, _, run, _⟩ := scans
  cases run with
  | ended read =>
    rw [Scanning.outcome_of_attempt read] at first
    cases first
  | entry read =>
    rw [Scanning.outcome_of_attempt read] at first
    cases first
    exact List.mem_cons_self ..

/-- The changed files of a layer are those of the entries of its archive. -/
theorem Scans.changed {entries : List Tar.Entry}
    (scans : Scans site stream staged entries contents) :
    contents.changed = entries.foldl changedAfter ∅ := by
  obtain ⟨gathered, final, run, decoded⟩ := scans
  rw [(ScanSite.decode_eq_ok decoded).1, run.changed]
  rfl

/-- An entry that is a file puts its path among the changed files of the layer. -/
theorem Scans.getElem?_changed {entries : List Tar.Entry}
    (scans : Scans site stream staged entries contents) {entry : Tar.Entry} {path : String}
    (member : entry ∈ entries) (isFile : IsFileAt path entry) :
    ∃ file, contents.changed[path]? = some file ∧ file.path = path := by
  have found : (entries.reverse.find? (IsFileAt path)).isSome = true := by
    rw [List.find?_isSome]
    exact ⟨entry, List.mem_reverse.mpr member, by simpa using isFile⟩
  obtain ⟨last, found⟩ := Option.isSome_iff_exists.mp found
  refine ⟨fileRecord path last, ?_, rfl⟩
  rw [scans.changed, getElem?_foldl_changedAfter, found]
  rfl

end Scan

end ImageAudit.Layer
