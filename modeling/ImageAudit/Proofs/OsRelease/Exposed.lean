import ImageAudit.Proofs.Fixture.Layer
import ImageAudit.Proofs.Layer.Members
import Mathlib.Data.List.Induction

/-! # The os-release text that an image exposes

What an image shows at a path is what the topmost layer wrote there that no layer from it on
upwards deletes: by the whiteout of the file or of a directory that it lies in, or by a marker that
hides all that lower layers hold in such a directory or at the top. The tracker follows all of these
but the whiteouts of directories. Where no layer has one of those, and the os-release files are
regular ones, it ends with the text that the image exposes.
-/

namespace ImageAudit

open Layer Tar

section Fold

variable {σ α β : Type} {step : σ → α → σ}

/-- Where each item replaces what it finds or leaves it, the last item that replaces it decides. -/
theorem foldl_of_replaces (view : σ → Option β) {replace? : α → Option β}
    (each : ∀ state item, view (step state item) = (replace? item).or (view state))
    (items : List α) (state : σ) :
    view (items.foldl step state) = (items.reverse.findSome? replace?).or (view state) := by
  induction items generalizing state with
  | nil => rfl
  | cons item items ih =>
    rw [List.foldl_cons, ih, each, List.reverse_cons, List.findSome?_append, Option.or_assoc]
    cases found : replace? item <;> simp [found]

/-- Where items only turn something on, it is on where it was or some item turns it on. -/
theorem foldl_of_marks (view : σ → Bool) {marks : α → Bool}
    (each : ∀ state item, view (step state item) = (view state || marks item))
    (items : List α) (state : σ) :
    view (items.foldl step state) = (view state || items.any marks) := by
  induction items generalizing state with
  | nil => exact (Bool.or_false _).symm
  | cons item items ih => rw [List.foldl_cons, ih, each, List.any_cons, Bool.or_assoc]

end Fold

namespace OsReleasePath

theorem ofPath?_eq_some_iff {path : String} {tracked : OsReleasePath} :
    ofPath? path = some tracked ↔ path = tracked.path := by
  unfold ofPath?
  constructor
  · intro found
    split_ifs at found with etc usrLib
    · cases found
      exact etc
    · cases found
      exact usrLib
  · rintro rfl
    cases tracked <;> decide +kernel

/-- The file lies in the directory, or deeper. -/
def liesIn (tracked : OsReleasePath) (directory : String) : Bool :=
  Text.startsWith tracked.path (directory ++ "/")

/-- The member is the file itself. -/
def IsWrittenBy (tracked : OsReleasePath) (member : Listed) : Prop :=
  member.meaning = .file tracked.path

instance (tracked : OsReleasePath) (member : Listed) : Decidable (tracked.IsWrittenBy member) :=
  inferInstanceAs (Decidable (_ = _))

/-- The member deletes what lower layers hold at the path. -/
def isDeletedBy (tracked : OsReleasePath) (member : Listed) : Bool :=
  match member.meaning with
  | .deletes path => path = tracked.path || tracked.liesIn path
  | .hides directory => directory = "." || tracked.liesIn directory
  | _ => false

/-- What a layer itself has at the path: the text of the last member that writes it. -/
def writtenIn? (tracked : OsReleasePath) (layer : List Listed) : Option String :=
  (layer.reverse.find? (tracked.IsWrittenBy ·)).map fun member => Utf8.lossy member.data

/-- Of layers with the topmost first, those whose files at the path no layer above deletes. -/
def uncovered (tracked : OsReleasePath) : List (List Listed) → List (List Listed)
  | [] => []
  | layer :: below => layer :: if layer.any tracked.isDeletedBy then [] else tracked.uncovered below

/-- The text that the layers, lowest first, leave visible at the path. -/
def visible? (tracked : OsReleasePath) (layers : List (List Listed)) : Option String :=
  (tracked.uncovered layers.reverse).findSome? tracked.writtenIn?

end OsReleasePath

/-- The os-release text that the layers expose. -/
def exposed? (layers : List (List Listed)) : Option String :=
  (OsReleasePath.etc.visible? layers).or (OsReleasePath.usrLib.visible? layers)

/-- A layer whose os-release files are regular ones of the length that is read, and that does not
both write one of them and delete it by a whiteout. -/
structure KeepsOsReleaseRegular (layer : List Listed) : Prop where
  regular : ∀ (tracked : OsReleasePath), ∀ member ∈ layer, tracked.IsWrittenBy member →
    member.entry.kind = .regular ∧ member.data.length ≤ maxOsReleaseSize
  apart : ∀ (tracked : OsReleasePath), ∀ writer ∈ layer, tracked.IsWrittenBy writer →
    ∀ marker ∈ layer, ∀ path, marker.meaning = .deletes path →
      path ≠ tracked.path ∧ tracked.liesIn path = false

/-- A layer without a whiteout of a directory that an os-release file lies in. -/
def SparesDirectories (layer : List Listed) : Prop :=
  ∀ (tracked : OsReleasePath), ∀ member ∈ layer, ∀ path, member.meaning = .deletes path →
    tracked.liesIn path = false

namespace OsReleaseChanges

variable (changes : OsReleaseChanges) (tracked : OsReleasePath)

theorem update?_record (path : OsReleasePath) (update : OsReleaseUpdate) :
    (changes.record path update).update? tracked =
      if path = tracked then some update else changes.update? tracked := by
  cases path <;> cases tracked <;> rfl

theorem hides_record (path : OsReleasePath) (update : OsReleaseUpdate) :
    (changes.record path update).hides tracked = changes.hides tracked := by
  cases path <;> rfl

theorem update?_hideDirectory (directory : String) :
    (changes.hideDirectory directory).update? tracked = changes.update? tracked := by
  cases tracked <;> rfl

theorem hides_hideDirectory (directory : String) :
    (changes.hideDirectory directory).hides tracked =
      (changes.hides tracked || (directory = "." || tracked.liesIn directory)) := by
  simp [hides, hideDirectory, OsReleasePath.liesIn]

end OsReleaseChanges

namespace OsReleasePath

variable (tracked : OsReleasePath)

/-- What a member does to the file, if anything. -/
def updateBy? (member : Listed) : Option OsReleaseUpdate :=
  match member.meaning with
  | .file path => if path = tracked.path then some (updateOf member) else none
  | .deletes path => if path = tracked.path then some .remove else none
  | _ => none

/-- The member hides all that lower layers hold where the file lies. -/
def isHiddenBy (member : Listed) : Bool :=
  match member.meaning with
  | .hides directory => directory = "." || tracked.liesIn directory
  | _ => false

theorem update?_osReleaseAfter (changes : OsReleaseChanges) (member : Listed) :
    (osReleaseAfter changes member).update? tracked =
      (tracked.updateBy? member).or (changes.update? tracked) := by
  unfold osReleaseAfter updateBy?
  cases member.meaning with
  | ignored => rfl
  | hides directory => exact changes.update?_hideDirectory tracked directory
  | deletes path | file path =>
    dsimp only
    cases found : ofPath? path with
    | none =>
      have elsewhere : path ≠ tracked.path := by
        rintro rfl
        rw [ofPath?_eq_some_iff.mpr rfl] at found
        cases found
      rw [if_neg elsewhere]
      rfl
    | some place =>
      obtain rfl := ofPath?_eq_some_iff.mp found
      have same : place.path = tracked.path ↔ place = tracked := by
        rw [← ofPath?_eq_some_iff, found, Option.some.injEq]
      by_cases here : place = tracked <;> simp [OsReleaseChanges.update?_record, same, here]

theorem hides_osReleaseAfter (changes : OsReleaseChanges) (member : Listed) :
    (osReleaseAfter changes member).hides tracked =
      (changes.hides tracked || tracked.isHiddenBy member) := by
  unfold osReleaseAfter isHiddenBy
  cases member.meaning with
  | ignored => exact (Bool.or_false _).symm
  | hides directory => exact changes.hides_hideDirectory tracked directory
  | deletes path | file path =>
    dsimp only
    rw [Bool.or_false]
    cases ofPath? path with
    | none => rfl
    | some place => exact changes.hides_record tracked place _

theorem update?_foldl (layer : List Listed) (changes : OsReleaseChanges) :
    (layer.foldl osReleaseAfter changes).update? tracked =
      (layer.reverse.findSome? tracked.updateBy?).or (changes.update? tracked) :=
  foldl_of_replaces (·.update? tracked) (update?_osReleaseAfter tracked) layer changes

theorem hides_foldl (layer : List Listed) (changes : OsReleaseChanges) :
    (layer.foldl osReleaseAfter changes).hides tracked =
      (changes.hides tracked || layer.any tracked.isHiddenBy) :=
  foldl_of_marks (·.hides tracked) (hides_osReleaseAfter tracked) layer changes

private theorem findSome?_of_forall {α β : Type} {items : List α} {f : α → Option β}
    {p : α → Bool} {g : α → β}
    (each : ∀ item ∈ items, f item = if p item then some (g item) else none) :
    items.findSome? f = (items.find? p).map g := by
  induction items with
  | nil => rfl
  | cons item items ih =>
    have later := ih fun other member => each other (List.mem_cons_of_mem _ member)
    rw [List.findSome?_cons, List.find?_cons, each item (List.mem_cons_self ..), later]
    cases p item <;> rfl

variable {tracked} {layer : List Listed}

theorem updateBy?_of_keeps (keeps : KeepsOsReleaseRegular layer) {writer member : Listed}
    (within : writer ∈ layer) (writes : tracked.IsWrittenBy writer) (within' : member ∈ layer) :
    tracked.updateBy? member = if decide (tracked.IsWrittenBy member) then
      some (.write (.file (Utf8.lossy member.data))) else none := by
  unfold updateBy?
  cases meant : member.meaning with
  | file path =>
    by_cases here : path = tracked.path
    · have writes' : tracked.IsWrittenBy member := by rw [IsWrittenBy, meant, here]
      obtain ⟨regular, short⟩ := keeps.regular tracked member within' writes'
      rw [if_pos (decide_eq_true writes'), updateOf, regular]
      simp only [if_pos here, List.take_of_length_le short]
    · have other : ¬ tracked.IsWrittenBy member := by
        rw [IsWrittenBy, meant]
        exact fun same => here (Member.file.inj same)
      simp [here, other]
  | deletes path =>
    have other : ¬ tracked.IsWrittenBy member := by
      rw [IsWrittenBy, meant]
      exact nofun
    have elsewhere := (keeps.apart tracked writer within writes member within' path meant).1
    simp [other, elsewhere]
  | ignored | hides directory =>
    have other : ¬ tracked.IsWrittenBy member := by
      rw [IsWrittenBy, meant]
      exact nofun
    simp [other]

theorem updateBy?_of_not_written {member : Listed} (other : ¬ tracked.IsWrittenBy member) :
    tracked.updateBy? member =
      if decide (member.meaning = .deletes tracked.path) then some .remove else none := by
  unfold updateBy?
  cases meant : member.meaning with
  | file path =>
    have elsewhere : path ≠ tracked.path := by
      rintro rfl
      exact other meant
    simp [elsewhere]
  | deletes path => simp
  | ignored | hides directory => simp

/-- In a layer that keeps them regular, the last update of an os-release file is the last text that
is written, or else the whiteout. -/
theorem findSome?_updateBy? (keeps : KeepsOsReleaseRegular layer) :
    layer.reverse.findSome? tracked.updateBy? =
      ((tracked.writtenIn? layer).map (.write <| .file ·)).or
        (if layer.any (·.meaning = .deletes tracked.path) then some .remove else none) := by
  by_cases written : ∃ writer ∈ layer, tracked.IsWrittenBy writer
  · obtain ⟨writer, within, writes⟩ := written
    have found : (layer.reverse.find? (tracked.IsWrittenBy ·)).isSome = true := by
      rw [List.find?_isSome]
      exact ⟨writer, List.mem_reverse.mpr within, decide_eq_true writes⟩
    obtain ⟨last, found⟩ := Option.isSome_iff_exists.mp found
    rw [findSome?_of_forall fun member within' =>
      updateBy?_of_keeps keeps within writes (List.mem_reverse.mp within'), writtenIn?, found]
    rfl
  · have other : ∀ member ∈ layer.reverse, ¬ tracked.IsWrittenBy member :=
      fun member within writes => written ⟨member, List.mem_reverse.mp within, writes⟩
    have nothing : tracked.writtenIn? layer = none := by
      rw [writtenIn?, Option.map_eq_none_iff, List.find?_eq_none]
      exact fun member within writes => other member within (of_decide_eq_true writes)
    rw [findSome?_of_forall fun member within => updateBy?_of_not_written (other member within),
      nothing, Option.map_none, Option.none_or, ← List.any_reverse]
    cases found : layer.reverse.find? (·.meaning = .deletes tracked.path) with
    | none =>
      have absent := List.find?_eq_none.mp found
      rw [if_neg (by simpa using absent)]
      rfl
    | some marker =>
      have present : layer.reverse.any (·.meaning = .deletes tracked.path) = true := by
        have marks := List.find?_some found
        exact List.any_eq_true.mpr ⟨marker, List.mem_of_find?_eq_some found, marks⟩
      rw [if_pos present]
      rfl

/-- Where no directory is whited out, a file is deleted by its own whiteout or hidden. -/
theorem any_isDeletedBy (spares : SparesDirectories layer) :
    layer.any tracked.isDeletedBy = (layer.any (·.meaning = .deletes tracked.path) ||
      layer.any tracked.isHiddenBy) := by
  have each : ∀ member ∈ layer, tracked.isDeletedBy member =
      (decide (member.meaning = .deletes tracked.path) || tracked.isHiddenBy member) := by
    intro member within
    unfold isDeletedBy isHiddenBy
    cases meant : member.meaning with
    | deletes path => simp [spares tracked member within path meant]
    | ignored | hides directory | file path => simp
  rw [Bool.eq_iff_iff, Bool.or_eq_true, List.any_eq_true, List.any_eq_true, List.any_eq_true]
  constructor
  · rintro ⟨member, within, deletes⟩
    rw [each member within, Bool.or_eq_true] at deletes
    exact deletes.imp (⟨member, within, ·⟩) (⟨member, within, ·⟩)
  · rintro (⟨member, within, marks⟩ | ⟨member, within, hides⟩)
    · exact ⟨member, within, by rw [each member within, marks, Bool.true_or]⟩
    · exact ⟨member, within, by rw [each member within, hides, Bool.or_true]⟩

/-- What a layer leaves at the path is what it has there, or else what was there and it does not
delete. -/
theorem entryAfter_foldl (keeps : KeepsOsReleaseRegular layer) (spares : SparesDirectories layer)
    (tracker : OsReleaseTracker) :
    tracker.entryAfter (layer.foldl osReleaseAfter .empty) tracked =
      ((tracked.writtenIn? layer).map .file).or
        (if layer.any tracked.isDeletedBy then none else tracker.entry? tracked) := by
  have untouched : OsReleaseChanges.empty.update? tracked = none := by cases tracked <;> rfl
  have shown : OsReleaseChanges.empty.hides tracked = false := rfl
  rw [OsReleaseTracker.entryAfter, update?_foldl, findSome?_updateBy? keeps, untouched,
    hides_foldl, shown, Bool.false_or, any_isDeletedBy spares]
  cases tracked.writtenIn? layer with
  | some text => rfl
  | none =>
    cases layer.any (·.meaning = .deletes tracked.path) <;>
      cases layer.any tracked.isHiddenBy <;> rfl

theorem visible?_concat (layers : List (List Listed)) :
    tracked.visible? (layers ++ [layer]) = (tracked.writtenIn? layer).or
      (if layer.any tracked.isDeletedBy then none else tracked.visible? layers) := by
  rw [visible?, List.reverse_append, List.reverse_singleton, List.singleton_append, uncovered,
    List.findSome?_cons]
  cases tracked.writtenIn? layer with
  | some text => rfl
  | none => cases layer.any tracked.isDeletedBy <;> rfl

end OsReleasePath

/-- What stands at the tracked paths after these layers. -/
def trackerAfter (changes : List OsReleaseChanges) : OsReleaseTracker :=
  changes.foldl OsReleaseTracker.apply .empty

theorem trackerAfter_concat (changes : List OsReleaseChanges) (last : OsReleaseChanges) :
    trackerAfter (changes ++ [last]) = (trackerAfter changes).apply last := by
  rw [trackerAfter, List.foldl_append]
  rfl

theorem OsReleaseTracker.entry?_apply (tracker : OsReleaseTracker) (changes : OsReleaseChanges)
    (tracked : OsReleasePath) :
    OsReleaseTracker.entry? (tracker.apply changes) tracked =
      tracker.entryAfter changes tracked := by
  cases tracked <;> rfl

/-- The tracker has at each path the text that the layers leave visible there. -/
theorem entry?_trackerAfter {layers : List (List Listed)}
    (keeps : ∀ layer ∈ layers, KeepsOsReleaseRegular layer)
    (spares : ∀ layer ∈ layers, SparesDirectories layer) (tracked : OsReleasePath) :
    OsReleaseTracker.entry? (trackerAfter (layers.map (·.foldl osReleaseAfter .empty))) tracked =
      (tracked.visible? layers).map .file := by
  induction layers using List.reverseRecOn with
  | nil => cases tracked <;> rfl
  | append_singleton layers layer ih =>
    have below := ih (fun other member => keeps other (List.mem_append_left _ member))
      fun other member => spares other (List.mem_append_left _ member)
    have top : layer ∈ layers ++ [layer] := List.mem_append_right _ (List.mem_singleton_self _)
    rw [List.map_append, List.map_singleton, trackerAfter_concat, OsReleaseTracker.entry?_apply,
      tracked.entryAfter_foldl (keeps _ top) (spares _ top), below, tracked.visible?_concat]
    cases tracked.writtenIn? layer with
    | some text => rfl
    | none => cases layer.any tracked.isDeletedBy <;> rfl

structure LayerScan where
  site : ScanSite
  stream : ByteStream
  staged : FileTree
  contents : LayerContents
  left : FileTree
  succeeds : scan site stream staged = (.ok contents, left)

namespace LayerScan

/-- The members of the archive of the layer. -/
def Has (layer : LayerScan) (members : List Listed) : Prop :=
  (Reader.new layer.stream).Lists members

theorem Has.osRelease {layer : LayerScan} {members : List Listed} (has : layer.Has members) :
    layer.contents.osRelease = members.foldl osReleaseAfter .empty := by
  obtain ⟨others, lists, -, osRelease⟩ := exists_members layer.succeeds
  rw [osRelease, lists.unique has]

end LayerScan

/-- Where no layer whites out a directory that an os-release file lies in, the text that is tracked
is the one that the image exposes. -/
theorem osRelease?_eq_exposed? {scans : List LayerScan} {layers : List (List Listed)}
    (has : List.Forall₂ LayerScan.Has scans layers)
    (keeps : ∀ layer ∈ layers, KeepsOsReleaseRegular layer)
    (spares : ∀ layer ∈ layers, SparesDirectories layer) :
    (trackerAfter (scans.map (·.contents.osRelease))).osRelease? = exposed? layers := by
  have changes : scans.map (·.contents.osRelease) =
      layers.map (·.foldl osReleaseAfter .empty) := by
    clear keeps spares
    induction has with
    | nil => rfl
    | cons first _ ih => rw [List.map_cons, List.map_cons, first.osRelease, ih]
  have content (tracked : OsReleasePath) :
      (trackerAfter (scans.map (·.contents.osRelease))).content? tracked =
        tracked.visible? layers := by
    rw [OsReleaseTracker.content?, changes, entry?_trackerAfter keeps spares]
    cases tracked.visible? layers <;> rfl
  rw [OsReleaseTracker.osRelease?, content, content, exposed?]

section Entries

open Fixture (LayerEntry archive sampleSite)

variable {entries : List LayerEntry} {members : List Listed}

section Read

variable (isRead : List.Forall₂ LayerEntry.IsRead entries members)
include isRead

private theorem exists_entry_of_mem {member : Listed} (within : member ∈ members) :
    ∃ entry ∈ entries, entry.IsRead member := by
  induction isRead with
  | nil => cases within
  | cons first _ ih =>
    rcases List.mem_cons.mp within with rfl | later
    · exact ⟨_, List.mem_cons_self .., first⟩
    · obtain ⟨entry, listed, isRead⟩ := ih later
      exact ⟨entry, List.mem_cons_of_mem _ listed, isRead⟩

theorem keepsOsReleaseRegular_of_entries
    (regular : ∀ entry ∈ entries,
      entry.kind = .regular ∧ entry.content.length ≤ maxOsReleaseSize)
    (unmixed : (∀ entry ∈ entries, ∀ path, entry.meaning ≠ .deletes path) ∨
      ∀ entry ∈ entries, ∀ path, entry.meaning ≠ .file path) :
    KeepsOsReleaseRegular members := by
  constructor
  · intro tracked member within _
    obtain ⟨entry, listed, read⟩ := exists_entry_of_mem isRead within
    rw [read.kind, read.data]
    exact regular entry listed
  · intro tracked writer within writes marker within' path deletes
    obtain ⟨entry, listed, read⟩ := exists_entry_of_mem isRead within
    obtain ⟨entry', listed', read'⟩ := exists_entry_of_mem isRead within'
    rw [OsReleasePath.IsWrittenBy, read.meaning] at writes
    rw [read'.meaning] at deletes
    rcases unmixed with noMarker | noFile
    · exact absurd deletes (noMarker entry' listed' path)
    · exact absurd writes (noFile entry listed tracked.path)

theorem sparesDirectories_of_entries
    (noMarker : ∀ entry ∈ entries, ∀ path, entry.meaning ≠ .deletes path) :
    SparesDirectories members := by
  intro tracked member within path deletes
  obtain ⟨entry, listed, read⟩ := exists_entry_of_mem isRead within
  rw [read.meaning] at deletes
  exact absurd deletes (noMarker entry listed path)

end Read

/-- A layer of the fixture that can be scanned has the members that its entries come to. -/
theorem exists_layerScan (short : (archive entries).length < 2 ^ 63)
    (succeeds : (scan sampleSite (.ofBytes (archive entries)) .empty).1.isOk = true) :
    ∃ (layer : LayerScan) (members : List Listed),
      layer.Has members ∧ List.Forall₂ LayerEntry.IsRead entries members := by
  cases outcome : scan sampleSite (.ofBytes (archive entries)) .empty with
  | mk result left =>
    rw [outcome] at succeeds
    cases result with
    | error failure => cases succeeds
    | ok contents =>
      obtain ⟨members, lists, -⟩ := exists_members outcome
      have fresh := Reader.reads_new (.ofBytes (archive entries))
      exact ⟨⟨_, _, _, _, _, outcome⟩, members, lists, LayerEntry.forall₂_lists short
        ⟨fresh, Nat.le_refl _, Nat.zero_le _, rfl⟩ lists⟩

end Entries

section Sample

open Fixture (LayerEntry)

def sampleEtc : LayerEntry := .file "etc/os-release" 0o644 [0x41]

def sampleUsrLib : LayerEntry := .file "usr/lib/os-release" 0o644 [0x42]

private theorem meaning_sampleEtc : sampleEtc.meaning = .file "etc/os-release" := by
  decide +kernel

private theorem meaning_sampleUsrLib : sampleUsrLib.meaning = .file "usr/lib/os-release" := by
  decide +kernel

private theorem meaning_etcHidden : (LayerEntry.opaqueDirectory "etc").meaning = .hides "etc" := by
  decide +kernel

private theorem meaning_etcDeleted : (LayerEntry.whiteout "etc").meaning = .deletes "etc" := by
  decide +kernel

private theorem liesIn_etc : OsReleasePath.etc.liesIn "etc" = true := by decide +kernel

/-- What is hidden of one of them leaves the other to be seen. -/
theorem osRelease?_eq_exposed?_sample : ∃ (scans : List LayerScan) (layers : List (List Listed)),
    List.Forall₂ LayerScan.Has scans layers ∧
      (∀ layer ∈ layers, KeepsOsReleaseRegular layer) ∧
      (∀ layer ∈ layers, SparesDirectories layer) ∧
      (trackerAfter (scans.map (·.contents.osRelease))).osRelease? = some "B" := by
  obtain ⟨lower, below, hasBelow, belowRead⟩ : ∃ layer members, LayerScan.Has layer members ∧
      List.Forall₂ LayerEntry.IsRead [sampleEtc, sampleUsrLib] members :=
    exists_layerScan (by decide +kernel) (by decide +kernel)
  obtain ⟨upper, above, hasAbove, aboveRead⟩ : ∃ layer members, LayerScan.Has layer members ∧
      List.Forall₂ LayerEntry.IsRead [.opaqueDirectory "etc"] members :=
    exists_layerScan (by decide +kernel) (by decide +kernel)
  have noneBelow : ∀ entry ∈ [sampleEtc, sampleUsrLib], ∀ path, entry.meaning ≠ .deletes path := by
    simp [meaning_sampleEtc, meaning_sampleUsrLib]
  have noneAbove : ∀ entry ∈ [LayerEntry.opaqueDirectory "etc"], ∀ path,
      entry.meaning ≠ .deletes path := by
    simp [meaning_etcHidden]
  have has : List.Forall₂ LayerScan.Has [lower, upper] [below, above] :=
    .cons hasBelow (.cons hasAbove .nil)
  have keeps : ∀ layer ∈ [below, above], KeepsOsReleaseRegular layer :=
    List.forall_mem_cons.mpr
      ⟨keepsOsReleaseRegular_of_entries belowRead (by decide +kernel) (.inl noneBelow),
        List.forall_mem_singleton.mpr
          (keepsOsReleaseRegular_of_entries aboveRead (by decide +kernel) (.inl noneAbove))⟩
  have spares : ∀ layer ∈ [below, above], SparesDirectories layer :=
    List.forall_mem_cons.mpr ⟨sparesDirectories_of_entries belowRead noneBelow,
      List.forall_mem_singleton.mpr (sparesDirectories_of_entries aboveRead noneAbove)⟩
  refine ⟨_, _, has, keeps, spares, ?_⟩
  rw [osRelease?_eq_exposed? has keeps spares]
  obtain ⟨etc, _, etcRead, rest, rfl⟩ := List.forall₂_cons_left_iff.mp belowRead
  obtain ⟨usrLib, _, usrLibRead, ended, rfl⟩ := List.forall₂_cons_left_iff.mp rest
  obtain rfl := List.forall₂_nil_left_iff.mp ended
  obtain ⟨marker, _, markerRead, ended, rfl⟩ := List.forall₂_cons_left_iff.mp aboveRead
  obtain rfl := List.forall₂_nil_left_iff.mp ended
  have shown : OsReleasePath.usrLib.liesIn "etc" = false := by decide +kernel
  have text : Utf8.lossy usrLib.data = "B" := by
    rw [usrLibRead.data]
    decide +kernel
  simp [exposed?, OsReleasePath.visible?, OsReleasePath.uncovered, OsReleasePath.writtenIn?,
    OsReleasePath.isDeletedBy, OsReleasePath.IsWrittenBy, OsReleasePath.path, etcRead.meaning,
    usrLibRead.meaning, markerRead.meaning, meaning_sampleEtc, meaning_sampleUsrLib,
    meaning_etcHidden, liesIn_etc, shown, text]

/-- The whiteout of a directory does not reach the text that is tracked. -/
theorem not_forall_osRelease?_eq_exposed? :
    ¬ ∀ (scans : List LayerScan) (layers : List (List Listed)),
      List.Forall₂ LayerScan.Has scans layers → (∀ layer ∈ layers, KeepsOsReleaseRegular layer) →
      (trackerAfter (scans.map (·.contents.osRelease))).osRelease? = exposed? layers := by
  intro follows
  obtain ⟨lower, below, hasBelow, belowRead⟩ : ∃ layer members, LayerScan.Has layer members ∧
      List.Forall₂ LayerEntry.IsRead [sampleEtc] members :=
    exists_layerScan (by decide +kernel) (by decide +kernel)
  obtain ⟨upper, above, hasAbove, aboveRead⟩ : ∃ layer members, LayerScan.Has layer members ∧
      List.Forall₂ LayerEntry.IsRead [.whiteout "etc"] members :=
    exists_layerScan (by decide +kernel) (by decide +kernel)
  have noMarker : ∀ entry ∈ [sampleEtc], ∀ path, entry.meaning ≠ .deletes path := by
    simp [meaning_sampleEtc]
  have noFile : ∀ entry ∈ [LayerEntry.whiteout "etc"], ∀ path, entry.meaning ≠ .file path := by
    simp [meaning_etcDeleted]
  have keeps : ∀ layer ∈ [below, above], KeepsOsReleaseRegular layer :=
    List.forall_mem_cons.mpr
      ⟨keepsOsReleaseRegular_of_entries belowRead (by decide +kernel) (.inl noMarker),
        List.forall_mem_singleton.mpr
          (keepsOsReleaseRegular_of_entries aboveRead (by decide +kernel) (.inr noFile))⟩
  have same := follows [lower, upper] [below, above] (.cons hasBelow (.cons hasAbove .nil)) keeps
  obtain ⟨etc, _, etcRead, ended, rfl⟩ := List.forall₂_cons_left_iff.mp belowRead
  obtain rfl := List.forall₂_nil_left_iff.mp ended
  obtain ⟨marker, _, markerRead, ended, rfl⟩ := List.forall₂_cons_left_iff.mp aboveRead
  obtain rfl := List.forall₂_nil_left_iff.mp ended
  have etcMeant : etc.meaning = .file "etc/os-release" :=
    etcRead.meaning.trans meaning_sampleEtc
  have markerMeant : marker.meaning = .deletes "etc" := markerRead.meaning.trans meaning_etcDeleted
  have nothing : exposed? [[etc], [marker]] = none := by
    simp [exposed?, OsReleasePath.visible?, OsReleasePath.uncovered, OsReleasePath.writtenIn?,
      OsReleasePath.isDeletedBy, OsReleasePath.IsWrittenBy, OsReleasePath.path, etcMeant,
      markerMeant, liesIn_etc]
  have written : osReleaseAfter .empty etc = OsReleaseChanges.empty.record .etc (updateOf etc) := by
    have tracked : OsReleasePath.ofPath? "etc/os-release" = some .etc := by decide +kernel
    simp [osReleaseAfter, etcMeant, tracked]
  have unseen : osReleaseAfter .empty marker = .empty := by
    have untracked : OsReleasePath.ofPath? "etc" = none := by decide +kernel
    simp [osReleaseAfter, markerMeant, untracked]
  have regular : updateOf etc = .write (.file (Utf8.lossy (etc.data.take maxOsReleaseSize))) := by
    rw [updateOf, etcRead.kind]
    rfl
  rw [nothing, List.map_cons, List.map_singleton, hasBelow.osRelease, hasAbove.osRelease,
    List.foldl_cons, List.foldl_nil, List.foldl_cons, List.foldl_nil, written, unseen,
    regular] at same
  cases same

end Sample

end ImageAudit
