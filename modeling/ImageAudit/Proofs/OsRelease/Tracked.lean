import ImageAudit.FileTree
import ImageAudit.Proofs.OsRelease.Exposed

/-! # What the tracker ends with

A layer is recorded call by call: a tracked file is written or removed, a directory is hidden. Of
all layers only one counts for a file, the last that has an update of it or hides a directory above
it; its last update decides, even where the directory was hidden later. A link never helps: where
the file it leads to is shown, that file is shown without the link as well.
-/

namespace ImageAudit

/-- One thing that is recorded of a layer. -/
inductive OsReleaseCall where
  | set (tracked : OsReleasePath) (entry : OsReleaseEntry)
  | remove (tracked : OsReleasePath)
  | hide (directory : String)
  deriving DecidableEq, Repr

namespace OsReleaseChanges

def after (changes : OsReleaseChanges) : OsReleaseCall → OsReleaseChanges
  | .set tracked entry => changes.record tracked (.write entry)
  | .remove tracked => changes.record tracked .remove
  | .hide directory => changes.hideDirectory directory

def ofCalls (calls : List OsReleaseCall) : OsReleaseChanges := calls.foldl after .empty

end OsReleaseChanges

namespace OsReleasePath

variable (tracked : OsReleasePath)

/-- The directory is the top, or the components of the file begin with those of the directory, and
go on. -/
def LiesBelow (directory : String) : Prop :=
  directory = "." ∨ ∃ rest ≠ [],
    FileTree.components tracked.path = FileTree.components directory ++ rest

/-- What a call does to the file, if anything. -/
def updateOfCall? : OsReleaseCall → Option OsReleaseUpdate
  | .set written entry => if written = tracked then some (.write entry) else none
  | .remove removed => if removed = tracked then some .remove else none
  | .hide _ => none

def lastUpdate? (calls : List OsReleaseCall) : Option OsReleaseUpdate :=
  calls.reverse.findSome? tracked.updateOfCall?

/-- What the calls leave of the file: what they wrote last, unless they removed it then. -/
def leftBy? (calls : List OsReleaseCall) : Option OsReleaseEntry :=
  match tracked.lastUpdate? calls with
  | some (.write entry) => some entry
  | some .remove => none
  | none => none

/-- The calls update the file or hide a directory above it. -/
def Concerns (calls : List OsReleaseCall) : Prop :=
  (tracked.lastUpdate? calls).isSome ∨
    ∃ directory, .hide directory ∈ calls ∧ tracked.LiesBelow directory

/-- What the layers leave of the file: what the last one leaves that concerns it. -/
inductive Ends : List (List OsReleaseCall) → Option OsReleaseEntry → Prop where
  | untouched {layers : List (List OsReleaseCall)}
      (spared : ∀ calls ∈ layers, ¬ tracked.Concerns calls) : Ends layers none
  | decided (below : List (List OsReleaseCall)) {calls : List OsReleaseCall}
      {above : List (List OsReleaseCall)} (concerns : tracked.Concerns calls)
      (later : ∀ calls ∈ above, ¬ tracked.Concerns calls) :
      Ends (below ++ calls :: above) (tracked.leftBy? calls)

end OsReleasePath

namespace FileTree

theorem components_append_slash (before after : List Char) :
    components (String.ofList (before ++ '/' :: after)) =
      components (String.ofList before) ++ components (String.ofList after) := by
  simp only [components, String.toList_ofList, List.splitOn_append_cons_self, List.map_append]

theorem intercalate_components (path : String) :
    ['/'].intercalate ((components path).map String.toList) = path.toList := by
  rw [components, List.map_map]
  have same : String.toList ∘ String.ofList = id := funext fun _ => String.toList_ofList
  rw [same, List.map_id, List.intercalate_splitOn]

theorem components_ne_nil (path : String) : components path ≠ [] := by
  simp [components, List.splitOn_ne_nil]

/-- A path begins with a directory and a slash exactly when its components begin with those of the
directory, and go on. -/
theorem startsWith_slash_iff {path directory : String} :
    Text.startsWith path (directory ++ "/") = true ↔
      ∃ rest ≠ [], components path = components directory ++ rest := by
  rw [Text.startsWith, List.isPrefixOf_iff_prefix]
  constructor
  · rintro ⟨after, whole⟩
    refine ⟨components (String.ofList after), components_ne_nil _, ?_⟩
    have cut := components_append_slash directory.toList after
    rw [String.ofList_toList] at cut
    rw [← cut, ← String.ofList_toList (s := path), ← whole]
    simp
  · rintro ⟨rest, some, whole⟩
    have joined := intercalate_components path
    have some' : (components directory).map String.toList ≠ [] := by
      simpa using components_ne_nil directory
    rw [whole, List.map_append, Path.intercalate_append some' (by simpa using some),
      intercalate_components] at joined
    rw [← joined]
    simp

end FileTree

namespace OsReleasePath

variable {tracked : OsReleasePath}

theorem isHidden_iff {directory : String} :
    (directory = "." || tracked.liesIn directory) = true ↔ tracked.LiesBelow directory := by
  rw [Bool.or_eq_true, decide_eq_true_eq, liesIn, FileTree.startsWith_slash_iff, LiesBelow]

theorem update?_after (changes : OsReleaseChanges) (call : OsReleaseCall) :
    (changes.after call).update? tracked =
      (tracked.updateOfCall? call).or (changes.update? tracked) := by
  cases call with
  | set written entry | remove written =>
    rw [OsReleaseChanges.after, OsReleaseChanges.update?_record, updateOfCall?]
    split <;> rfl
  | hide directory => exact changes.update?_hideDirectory tracked directory

theorem update?_ofCalls (calls : List OsReleaseCall) :
    (OsReleaseChanges.ofCalls calls).update? tracked = tracked.lastUpdate? calls := by
  have untouched : OsReleaseChanges.empty.update? tracked = none := by cases tracked <;> rfl
  have folded := foldl_of_replaces (OsReleaseChanges.update? · tracked) update?_after calls .empty
  rw [untouched, Option.or_none] at folded
  exact folded

/-- Whether a call hides a directory above the file. -/
def hidesCall (tracked : OsReleasePath) : OsReleaseCall → Bool
  | .hide directory => directory = "." || tracked.liesIn directory
  | _ => false

theorem hides_after (changes : OsReleaseChanges) (call : OsReleaseCall) :
    (changes.after call).hides tracked = (changes.hides tracked || tracked.hidesCall call) := by
  cases call with
  | set written entry | remove written =>
    exact (changes.hides_record tracked written _).trans (Bool.or_false _).symm
  | hide directory => exact changes.hides_hideDirectory tracked directory

theorem hides_ofCalls_iff (calls : List OsReleaseCall) :
    (OsReleaseChanges.ofCalls calls).hides tracked = true ↔
      ∃ directory, .hide directory ∈ calls ∧ tracked.LiesBelow directory := by
  have shown : OsReleaseChanges.empty.hides tracked = false := rfl
  have folded := foldl_of_marks (OsReleaseChanges.hides · tracked) hides_after calls .empty
  rw [shown, Bool.false_or] at folded
  rw [OsReleaseChanges.ofCalls, folded, List.any_eq_true]
  constructor
  · rintro ⟨call, member, hides⟩
    cases call with
    | set | remove => cases hides
    | hide directory => exact ⟨directory, member, isHidden_iff.mp hides⟩
  · rintro ⟨directory, member, below⟩
    exact ⟨.hide directory, member, isHidden_iff.mpr below⟩

section Layer

variable {calls : List OsReleaseCall}

/-- A layer that concerns the file leaves what its calls leave. -/
theorem Concerns.entryAfter (concerns : tracked.Concerns calls) (tracker : OsReleaseTracker) :
    tracker.entryAfter (.ofCalls calls) tracked = tracked.leftBy? calls := by
  rw [OsReleaseTracker.entryAfter, update?_ofCalls, leftBy?]
  cases updated : tracked.lastUpdate? calls with
  | some update => cases update <;> rfl
  | none =>
    have hidden : (OsReleaseChanges.ofCalls calls).hides tracked = true := by
      apply (hides_ofCalls_iff calls).mpr
      apply concerns.resolve_left
      simp [updated]
    exact if_pos hidden

/-- A layer that does not concern the file leaves what was there. -/
theorem entryAfter_of_not_concerns (spared : ¬ tracked.Concerns calls)
    (tracker : OsReleaseTracker) :
    tracker.entryAfter (.ofCalls calls) tracked = tracker.entry? tracked := by
  obtain ⟨unchanged, shown⟩ := not_or.mp spared
  rw [← hides_ofCalls_iff, Bool.not_eq_true] at shown
  rw [Option.not_isSome_iff_eq_none] at unchanged
  rw [OsReleaseTracker.entryAfter, update?_ofCalls, unchanged, shown]
  rfl

/-- One more layer decides what is left, if it concerns the file. -/
theorem Ends.concat {layers : List (List OsReleaseCall)} {left : Option OsReleaseEntry}
    (ends : tracked.Ends layers left) (spared : ¬ tracked.Concerns calls) :
    tracked.Ends (layers ++ [calls]) left := by
  have forall_concat {others : List (List OsReleaseCall)}
      (others_spared : ∀ other ∈ others, ¬ tracked.Concerns other) :
      ∀ other ∈ others ++ [calls], ¬ tracked.Concerns other := by
    rw [List.forall_mem_append, List.forall_mem_singleton]
    exact ⟨others_spared, spared⟩
  cases ends with
  | untouched all => exact .untouched (forall_concat all)
  | decided below concerns later =>
    rw [List.append_assoc, List.cons_append]
    exact .decided below concerns (forall_concat later)

end Layer

end OsReleasePath

/-- The text of an entry that is a file. -/
def OsReleaseEntry.text? : OsReleaseEntry → Option String
  | .file content => some content
  | .link _ => none

namespace OsReleaseTracker

variable (tracker : OsReleaseTracker)

theorem fileContent?_eq (tracked : OsReleasePath) :
    tracker.fileContent? tracked =
      Option.bind (OsReleaseTracker.entry? tracker tracked) OsReleaseEntry.text? := by
  unfold fileContent?
  cases tracker.entry? tracked with
  | none => rfl
  | some entry => cases entry <;> rfl

variable {tracker}

theorem content?_of_fileContent? {tracked : OsReleasePath} {content : String}
    (found : tracker.fileContent? tracked = some content) :
    tracker.content? tracked = some content := by
  unfold fileContent? at found
  unfold content?
  split at found
  · rename_i same
    rw [same]
    exact found
  · cases found

/-- What is found through a link is the text of a file. -/
theorem content?_eq_none_or (tracker : OsReleaseTracker) (tracked : OsReleasePath) :
    tracker.content? tracked = none ∨
      ∃ other, tracker.content? tracked = tracker.fileContent? other := by
  unfold content?
  cases stands : tracker.entry? tracked with
  | none => exact .inl rfl
  | some entry =>
    cases entry with
    | file content => exact .inr ⟨tracked, by simp [fileContent?, stands]⟩
    | link target =>
      dsimp only
      cases OsReleasePath.ofPath? (linkTarget tracked target) with
      | none => exact .inl rfl
      | some other => exact .inr ⟨other, rfl⟩

theorem content?_eq_none (tracked : OsReleasePath)
    (noFile : ∀ other, tracker.fileContent? other = none) : tracker.content? tracked = none := by
  rcases content?_eq_none_or tracker tracked with absent | ⟨other, found⟩
  · exact absent
  · rw [found, noFile]

/-- Links make no difference to the text: it is that of the first of the two paths that is a
file. -/
theorem osRelease?_eq_or (tracker : OsReleaseTracker) :
    tracker.osRelease? = (tracker.fileContent? .etc).or (tracker.fileContent? .usrLib) := by
  rw [osRelease?]
  cases etc : tracker.fileContent? .etc with
  | some content => rw [content?_of_fileContent? etc, Option.some_or, Option.some_or]
  | none =>
    rw [Option.none_or]
    cases usrLib : tracker.fileContent? .usrLib with
    | none =>
      have absent : ∀ other, tracker.fileContent? other = none := by
        intro other
        cases other
        · exact etc
        · exact usrLib
      rw [content?_eq_none .etc absent, content?_eq_none .usrLib absent, Option.none_or]
    | some content =>
      rw [content?_of_fileContent? usrLib]
      rcases content?_eq_none_or tracker .etc with absent | ⟨other, found⟩
      · rw [absent, Option.none_or]
      · rw [found]
        cases other
        · rw [etc, Option.none_or]
        · rw [usrLib, Option.some_or]

end OsReleaseTracker

/-- What the layers leave at a tracked path stands there. -/
theorem ends_trackerAfter (layers : List (List OsReleaseCall)) (tracked : OsReleasePath) :
    tracked.Ends layers <|
      OsReleaseTracker.entry? (trackerAfter (layers.map .ofCalls)) tracked := by
  induction layers using List.reverseRecOn with
  | nil =>
    have nothing : OsReleaseTracker.entry? (trackerAfter []) tracked = none := by
      cases tracked <;> rfl
    rw [List.map_nil, nothing]
    exact .untouched fun _ within => absurd within List.not_mem_nil
  | append_singleton layers calls ih =>
    rw [List.map_append, List.map_singleton, trackerAfter_concat, OsReleaseTracker.entry?_apply]
    by_cases concerns : tracked.Concerns calls
    · rw [concerns.entryAfter]
      exact .decided layers concerns fun _ within => absurd within List.not_mem_nil
    · rw [OsReleasePath.entryAfter_of_not_concerns concerns]
      exact ih.concat concerns

/-- The last layer that concerns a file decides what stands there after all layers. The text is then
that of the first of the two paths that is a file, whatever links there are. -/
theorem trackerAfter_ofCalls (layers : List (List OsReleaseCall)) :
    let tracker := trackerAfter (layers.map .ofCalls)
    OsReleasePath.etc.Ends layers tracker.etc ∧ OsReleasePath.usrLib.Ends layers tracker.usrLib ∧
      tracker.osRelease? = (tracker.etc.bind OsReleaseEntry.text?).or
        (tracker.usrLib.bind OsReleaseEntry.text?) := by
  intro tracker
  refine ⟨ends_trackerAfter layers .etc, ends_trackerAfter layers .usrLib, ?_⟩
  rw [tracker.osRelease?_eq_or, tracker.fileContent?_eq, tracker.fileContent?_eq]
  rfl

end ImageAudit
