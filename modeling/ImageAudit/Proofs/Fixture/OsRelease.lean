import ImageAudit.Proofs.OsRelease.Declaration
import ImageAudit.Proofs.OsRelease.Tracked

/-! # A written platform is found

The os-release file and the link to it are the last two entries of their layer, so they decide what
stands at the two tracked paths, whatever the layer or those below it had there or hid. A link shows
no text of its own, so the text is that of the file, and the declaration in it is the only one.
-/

namespace ImageAudit

open Fixture Layer Tar

namespace DistTag

/-- A declaration is found where it stands. -/
theorem head?_declarations_declaration {tag : List Char} (isTag : IsTag tag) :
    (declarations (declaration tag)).head? = some tag :=
  head?_declarations_eq_some_iff.mpr
    ⟨[], ⟨isTag, List.prefix_refl _⟩, fun _ _ _ => Nat.zero_le _⟩

/-- The text of a platform has its declaration in a line of its own, behind two others. -/
theorem toList_osReleaseText (platform : String) :
    (LayerEntry.osReleaseText platform).toList =
      "NAME=\"Red Hat Enterprise Linux\"".toList ++ '\n' ::
        ("ID=\"rhel\"".toList ++ '\n' :: (declaration platform.toList ++ '\n' :: [])) := by
  have front : "NAME=\"Red Hat Enterprise Linux\"\nID=\"rhel\"\nPLATFORM_ID=\"platform:".toList =
      "NAME=\"Red Hat Enterprise Linux\"".toList ++
        '\n' :: ("ID=\"rhel\"".toList ++ '\n' :: marker) := by
    decide +kernel
  have back : "\"\n".toList = ['"', '\n'] := by decide +kernel
  unfold LayerEntry.osReleaseText declaration
  rw [String.toList_append, String.toList_append, front, back]
  simp only [List.append_assoc, List.cons_append, List.nil_append]

/-- The text of a platform declares no other. -/
theorem ofOsRelease_osReleaseText {platform : String} (isTag : IsTag platform.toList) :
    ofOsRelease (LayerEntry.osReleaseText platform) = known platform := by
  have name : declarations "NAME=\"Red Hat Enterprise Linux\"".toList = [] := by decide +kernel
  have id : declarations "ID=\"rhel\"".toList = [] := by decide +kernel
  rw [ofOsRelease_eq_known_iff, toList_osReleaseText, separates_lineFeed.declarations_append,
    separates_lineFeed.declarations_append, separates_lineFeed.declarations_append, name, id,
    declarations_nil, List.append_nil, List.nil_append, List.nil_append]
  exact head?_declarations_declaration isTag

end DistTag

namespace OsReleasePath

/-- A member at the path updates the file as its kind has it. -/
theorem updateBy?_of_isWrittenBy {tracked : OsReleasePath} {member : Listed}
    (writes : tracked.IsWrittenBy member) : tracked.updateBy? member = some (updateOf member) := by
  have meant : member.meaning = .file tracked.path := writes
  rw [updateBy?, meant]
  exact if_pos rfl

/-- A member at the path of the one file leaves the other as it is. -/
theorem updateBy?_of_isWrittenBy_other {tracked other : OsReleasePath} {member : Listed}
    (writes : other.IsWrittenBy member) (distinct : other ≠ tracked) :
    tracked.updateBy? member = none := by
  have meant : member.meaning = .file other.path := writes
  have elsewhere : other.path ≠ tracked.path := by
    intro same
    have found := ofPath?_eq_some_iff.mpr same
    rw [ofPath?_eq_some_iff.mpr rfl] at found
    exact distinct (Option.some.inj found)
  rw [updateBy?, meant]
  exact if_neg elsewhere

end OsReleasePath

def OsReleaseUpdate.text? : OsReleaseUpdate → Option String
  | .write entry => entry.text?
  | .remove => none

/-- The text at a path is what the last update of a layer leaves there. -/
theorem OsReleaseTracker.fileContent?_apply (tracker : OsReleaseTracker)
    {changes : OsReleaseChanges} {tracked : OsReleasePath} {update : OsReleaseUpdate}
    (updated : changes.update? tracked = some update) :
    (tracker.apply changes).fileContent? tracked = update.text? := by
  rw [fileContent?_eq, entry?_apply, entryAfter, updated]
  cases update <;> rfl

section Update

variable {member : Listed}

theorem text?_updateOf_of_symbolicLink (isLink : member.entry.kind = .symbolicLink) :
    (updateOf member).text? = none := by
  rw [updateOf, isLink]
  cases member.entry.link? <;> rfl

theorem text?_updateOf_of_regular (isRegular : member.entry.kind = .regular) :
    (updateOf member).text? = some (Utf8.lossy (member.data.take maxOsReleaseSize)) := by
  rw [updateOf, isRegular]
  rfl

end Update

namespace Fixture

variable {entries : List LayerEntry} {platform : String}

/-- The members of a layer that ends with os-release files end with those. -/
theorem exists_reverse_of_osRelease {members : List Listed}
    (areRead : List.Forall₂ LayerEntry.IsRead
      (entries ++ LayerEntry.osRelease platform) members) :
    ∃ link file earlier, members.reverse = link :: file :: earlier ∧
      LayerEntry.IsRead (.symbolicLink "etc/os-release" "../usr/lib/os-release") link ∧
      LayerEntry.IsRead (.file "usr/lib/os-release" 0o644
        (Bytes.ofText (LayerEntry.osReleaseText platform))) file := by
  have backwards := List.rel_reverse areRead
  rw [List.reverse_append, LayerEntry.osRelease] at backwards
  obtain ⟨link, _, linkRead, rest, reversed⟩ := List.forall₂_cons_left_iff.mp backwards
  obtain ⟨file, earlier, fileRead, -, rfl⟩ := List.forall₂_cons_left_iff.mp rest
  exact ⟨link, file, earlier, reversed, linkRead, fileRead⟩

/-- What was written shows, whatever stood at the tracked paths before. -/
theorem osRelease?_of_scan_osRelease {site : ScanSite} {staged left : FileTree}
    {contents : LayerContents}
    (fits : (LayerEntry.osReleaseText platform).utf8ByteSize ≤ maxOsReleaseSize)
    (short : (archive (entries ++ LayerEntry.osRelease platform)).length < 2 ^ 63)
    (scanned : scan site (.ofBytes (archive (entries ++ LayerEntry.osRelease platform))) staged =
      (.ok contents, left)) (tracker : OsReleaseTracker) :
    (tracker.apply contents.osRelease).osRelease? = some (LayerEntry.osReleaseText platform) := by
  obtain ⟨members, lists, -, osRelease⟩ := exists_members scanned
  have fresh := Reader.reads_new (.ofBytes (archive (entries ++ LayerEntry.osRelease platform)))
  have areRead := LayerEntry.forall₂_lists short ⟨fresh, Nat.le_refl _, Nat.zero_le _, rfl⟩ lists
  obtain ⟨link, file, earlier, reversed, linkRead, fileRead⟩ := exists_reverse_of_osRelease areRead
  have atEtc : OsReleasePath.etc.IsWrittenBy link := by
    refine linkRead.meaning.trans ?_
    decide +kernel
  have atUsrLib : OsReleasePath.usrLib.IsWrittenBy file := by
    refine fileRead.meaning.trans ((if_neg nofun).trans ?_)
    change Member.ofPath (Path.normalize "usr/lib/os-release") = _
    decide +kernel
  have update (tracked : OsReleasePath) : contents.osRelease.update? tracked =
      ((tracked.updateBy? link).or ((tracked.updateBy? file).or
        (earlier.findSome? tracked.updateBy?))).or (OsReleaseChanges.empty.update? tracked) := by
    rw [osRelease, OsReleasePath.update?_foldl, reversed, List.findSome?_cons, List.findSome?_cons]
    cases tracked.updateBy? link <;> cases tracked.updateBy? file <;> rfl
  have etc : contents.osRelease.update? .etc = some (updateOf link) := by
    rw [update, OsReleasePath.updateBy?_of_isWrittenBy atEtc, Option.some_or, Option.some_or]
  have usrLib : contents.osRelease.update? .usrLib = some (updateOf file) := by
    rw [update, OsReleasePath.updateBy?_of_isWrittenBy_other atEtc (by decide), Option.none_or,
      OsReleasePath.updateBy?_of_isWrittenBy atUsrLib, Option.some_or, Option.some_or]
  have noText : (updateOf link).text? = none := text?_updateOf_of_symbolicLink linkRead.kind
  have text : (updateOf file).text? = some (LayerEntry.osReleaseText platform) := by
    have whole : file.data.take maxOsReleaseSize =
        Bytes.ofText (LayerEntry.osReleaseText platform) := by
      rw [fileRead.data]
      exact List.take_of_length_le (Nat.le_trans (Nat.le_of_eq (Bytes.length_ofText _)) fits)
    rw [text?_updateOf_of_regular fileRead.kind, whole, Utf8.lossy_ofText]
  rw [OsReleaseTracker.osRelease?_eq_or, tracker.fileContent?_apply etc, noText, Option.none_or,
    tracker.fileContent?_apply usrLib, text]

/-- The platform that a layer declares last is the one of the image, whatever the layer wrote,
deleted or hid before and whatever the layers below it left. No byte string in memory has `2 ^ 63`
bytes. -/
theorem distTag_of_scan_osRelease {site : ScanSite} {staged left : FileTree}
    {contents : LayerContents} (notEmpty : platform ≠ "")
    (alphanumeric : ∀ c ∈ platform.toList, c.isAlphanum = true)
    (fits : (LayerEntry.osReleaseText platform).utf8ByteSize ≤ 65536)
    (short : (archive (entries ++ LayerEntry.osRelease platform)).length < 2 ^ 63)
    (scanned : scan site (.ofBytes (archive (entries ++ LayerEntry.osRelease platform))) staged =
      (.ok contents, left)) (tracker : OsReleaseTracker) :
    (tracker.apply contents.osRelease).distTag = .known platform := by
  have isTag : DistTag.IsTag platform.toList := by
    refine ⟨fun empty => notEmpty (String.toList_eq_nil_iff.mp empty), fun c member => ?_⟩
    rw [DistTag.isAsciiAlnum_eq]
    exact alphanumeric c member
  rw [OsReleaseTracker.distTag, osRelease?_of_scan_osRelease fits short scanned tracker]
  exact DistTag.ofOsRelease_osReleaseText isTag

/-- A layer that writes one os-release file as a regular one, deletes the other and hides the
directory of the first. -/
def sampleEarlier : List LayerEntry :=
  [.file "etc/os-release" 0o644 (Bytes.ofText "PLATFORM_ID=\"platform:el8\""),
    .whiteout "usr/lib/os-release", .opaqueDirectory "etc"]

theorem distTag_of_scan_osRelease_sample :
    "el9" ≠ "" ∧ (∀ c ∈ "el9".toList, c.isAlphanum = true) ∧
      (LayerEntry.osReleaseText "el9").utf8ByteSize ≤ 65536 ∧
      (archive (sampleEarlier ++ LayerEntry.osRelease "el9")).length < 2 ^ 63 ∧
      ∃ contents left,
        scan sampleSite (.ofBytes (archive (sampleEarlier ++ LayerEntry.osRelease "el9"))) .empty =
          (.ok contents, left) ∧
        ∀ tracker : OsReleaseTracker, (tracker.apply contents.osRelease).distTag = .known "el9" := by
  have all : "el9".toList.all Char.isAlphanum = true := by decide
  have alphanumeric : ∀ c ∈ "el9".toList, c.isAlphanum = true := List.all_eq_true.mp all
  have fits : (LayerEntry.osReleaseText "el9").utf8ByteSize ≤ 65536 := by decide +kernel
  have short : (archive (sampleEarlier ++ LayerEntry.osRelease "el9")).length < 2 ^ 63 := by
    decide +kernel
  have succeeds : (scan sampleSite
      (.ofBytes (archive (sampleEarlier ++ LayerEntry.osRelease "el9"))) .empty).1.isOk = true := by
    decide +kernel
  refine ⟨by decide, alphanumeric, fits, short, ?_⟩
  cases outcome : scan sampleSite
      (.ofBytes (archive (sampleEarlier ++ LayerEntry.osRelease "el9"))) .empty with
  | mk result left =>
    rw [outcome] at succeeds
    cases result with
    | error failure => cases succeeds
    | ok contents =>
      exact ⟨contents, left, rfl,
        distTag_of_scan_osRelease (by decide) alphanumeric fits short outcome⟩

end Fixture

end ImageAudit
