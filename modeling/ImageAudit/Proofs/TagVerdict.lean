import ImageAudit.Proofs.Findings
import ImageAudit.Proofs.Verdict

/-! # Verdicts that rest on the platform

Two verdicts rest on the tag of the image's platform: a package is not built for it, or a newer one
is built for it no more. An image may declare no platform, or one that is called `unknown`; both
have the same tag. A verdict then rests on the tag all the same where the platform was declared, or
where the release of a package that is replaced happens to hold that word.
-/

namespace ImageAudit

/-- Whether the verdict was decided by the tag of the platform. -/
def Verdict.restsOnTag : Verdict → Bool
  | .warned .releaseLacksDistTag | .disallowed .distTagRegression => true
  | _ => false

theorem Verdict.restsOnTag_iff (verdict : Verdict) :
    verdict.restsOnTag = true ↔
      verdict = .warned .releaseLacksDistTag ∨ verdict = .disallowed .distTagRegression := by
  unfold restsOnTag
  split <;> simp_all

namespace DistTag

variable {tag : DistTag} {text : String}

theorem marks_iff_of_text (same : tag.text = text) (release : String) :
    tag.Marks release ↔ text.toList <:+: release.toList := by
  rw [Marks, same]

/-- Only a tag that was found rejects a release. -/
theorem rejects_iff_of_text (same : tag.text = text) (release : String) :
    tag.Rejects release ↔ tag = known text ∧ ¬ text.toList <:+: release.toList := by
  constructor
  · rintro ⟨found, rfl, missing⟩
    obtain rfl : found = text := same
    exact ⟨rfl, missing⟩
  · rintro ⟨found, missing⟩
    exact ⟨text, found, missing⟩

end DistTag

namespace Classifier

theorem KeepsOwner.restsOnTag_iff {classifier : Classifier} {modeBefore modeAfter : UInt32}
    {release : String} {before after : PackageRecord} {verdict : Verdict}
    (kept : classifier.KeepsOwner modeBefore modeAfter release before after verdict) :
    verdict.restsOnTag = true ↔
      ¬ FileMode.LosesSetId modeBefore modeAfter ∧ classifier.distTag.Rejects release := by
  cases kept with
  | setIdBitsRemoved lost => exact iff_of_false Bool.false_ne_true fun both => both.1 lost
  | releaseLacksDistTag kept rejected => exact iff_of_true rfl ⟨kept, rejected⟩
  | untrustedVendor _ ofPlatform _ =>
    exact iff_of_false Bool.false_ne_true fun both => ofPlatform both.2
  | reinstalled _ ofPlatform _ _ =>
    exact iff_of_false Bool.false_ne_true fun both => ofPlatform both.2
  | modifiedOutsidePackageManager tampers =>
    exact iff_of_false Bool.false_ne_true fun both => tampers.ofPlatform both.2

theorem judgeNewOwner_restsOnTag_iff (classifier : Classifier) (before after : PackageRecord) :
    (classifier.judgeNewOwner before after).restsOnTag = true ↔
      classifier.distTag.Marks before.release ∧ ¬ classifier.distTag.Marks after.release := by
  rw [← DistTag.isIn_iff, ← DistTag.isIn_iff, Bool.not_eq_true, ← Bool.not_eq_true',
    ← Bool.and_eq_true]
  unfold judgeNewOwner
  split
  · rename_i regression
    exact iff_of_true rfl regression
  · rename_i noRegression
    split
    · exact iff_of_false Bool.false_ne_true noRegression
    · exact iff_of_false Bool.false_ne_true noRegression

/-- What the tag of the platform decides about a file that goes from one owner to another, perhaps
the same. -/
inductive DecidedByTag (classifier : Classifier) (chain : Chain) (position : Nat) (path : String)
    (file : FileRecord) (previous current : PackageKey) : Prop where
  /-- The file stays with a package that is not built for the platform. -/
  | rejected {mode : UInt32} (same : current = previous)
      (below : chain.ModeBelow position path mode) (kept : ¬ FileMode.LosesSetId mode file.mode)
      (rejects : classifier.distTag.Rejects current.release)
  /-- The file goes to a package that is built for the platform no more. -/
  | regressed (differs : current ≠ previous) (marks : classifier.distTag.Marks previous.release)
      (lacks : ¬ classifier.distTag.Marks current.release)

/-- A verdict in a built chain rests on the tag exactly where the tag decides. -/
theorem Grounds.restsOnTag_iff {classifier : Classifier} {policy : ExclusionPolicy}
    {links : List ChainLink} {position : Nat} {finding : Finding} {file : FileRecord}
    {mode : UInt32} {before after : PackageRecord}
    (grounds : classifier.Grounds (Chain.build policy links) position finding file mode before
      after) :
    finding.verdict.restsOnTag = true ↔
      classifier.DecidedByTag (Chain.build policy links) position finding.path file
        finding.previous finding.package := by
  obtain ⟨keyBefore, keyAfter⟩ := grounds.keys
  have releaseBefore : before.release = finding.previous.release :=
    congrArg PackageKey.release keyBefore
  have releaseAfter : after.release = finding.package.release :=
    congrArg PackageKey.release keyAfter
  rw [grounds.verdict, judge]
  split
  · rename_i same
    rw [(judgeSameOwner_keepsOwner ..).restsOnTag_iff, releaseAfter]
    constructor
    · rintro ⟨kept, rejects⟩
      exact .rejected same grounds.modeBelow kept rejects
    · rintro (⟨_, below, kept, rejects⟩ | ⟨differs, _, _⟩)
      · obtain rfl := below.unique grounds.modeBelow
        exact ⟨kept, rejects⟩
      · exact absurd same differs
  · rename_i differs
    rw [judgeNewOwner_restsOnTag_iff, releaseBefore, releaseAfter]
    constructor
    · rintro ⟨marks, lacks⟩
      exact .regressed differs marks lacks
    · rintro (⟨same, _, _, _⟩ | ⟨_, marks, lacks⟩)
      · exact absurd same differs
      · exact ⟨marks, lacks⟩

/-- Some verdict rests on the tag exactly when the tag decides about some modification. -/
theorem exists_restsOnTag_iff (policy : ExclusionPolicy) (links : List ChainLink)
    (classifier : Classifier) :
    (∃ finding ∈ (classifier.classify (Chain.build policy links)).findings,
        finding.verdict.restsOnTag = true) ↔
      ∃ position path file previous current,
        (Chain.build policy links).Modifies position path file previous current ∧
        classifier.DecidedByTag (Chain.build policy links) position path file previous current := by
  constructor
  · rintro ⟨finding, member, rests⟩
    obtain ⟨position, file, mode, before, after, grounds⟩ := (mem_findings_iff ..).mp member
    exact ⟨position, finding.path, file, finding.previous, finding.package, grounds.modifies,
      grounds.restsOnTag_iff.mp rests⟩
  · rintro ⟨position, path, file, previous, current, modified, decided⟩
    obtain ⟨finding, mode, before, after, grounds, rfl, rfl, rfl⟩ :=
      exists_grounds_of_modifies classifier modified
    exact ⟨finding, (mem_findings_iff ..).mpr ⟨position, file, mode, before, after, grounds⟩,
      grounds.restsOnTag_iff.mpr decided⟩

/-- Where the tag reads `unknown`, a verdict rests on it in two cases only: the image declares a
platform of that name and a package is not built for it, or the word stands in the release of a
package and not in that of the package that replaces it. -/
theorem exists_restsOnTag_unknown_iff (policy : ExclusionPolicy) (links : List ChainLink)
    (content vendor : String) (unknown : (DistTag.ofOsRelease content).text = "unknown") :
    (∃ finding ∈ (classify ⟨DistTag.ofOsRelease content, vendor⟩
          (Chain.build policy links)).findings, finding.verdict.restsOnTag = true) ↔
      ∃ position path file previous current,
        (Chain.build policy links).Modifies position path file previous current ∧
        ((current = previous ∧ DistTag.ofOsRelease content = .known "unknown" ∧
            ¬ "unknown".toList <:+: current.release.toList ∧
            ∃ mode, (Chain.build policy links).ModeBelow position path mode ∧
              ¬ FileMode.LosesSetId mode file.mode) ∨
          (current ≠ previous ∧ "unknown".toList <:+: previous.release.toList ∧
            ¬ "unknown".toList <:+: current.release.toList)) := by
  rw [exists_restsOnTag_iff]
  refine exists_congr fun position => exists_congr fun path => exists_congr fun file =>
    exists_congr fun previous => exists_congr fun current => and_congr_right fun _ => ?_
  constructor
  · rintro (⟨same, below, kept, rejects⟩ | ⟨differs, marks, lacks⟩)
    · obtain ⟨found, missing⟩ := (DistTag.rejects_iff_of_text unknown _).mp rejects
      exact .inl ⟨same, found, missing, _, below, kept⟩
    · rw [DistTag.marks_iff_of_text unknown] at marks lacks
      exact .inr ⟨differs, marks, lacks⟩
  · rintro (⟨same, found, missing, mode, below, kept⟩ | ⟨differs, marks, lacks⟩)
    · exact .rejected same below kept ((DistTag.rejects_iff_of_text unknown _).mpr ⟨found, missing⟩)
    · exact .regressed differs ((DistTag.marks_iff_of_text unknown _).mpr marks)
        (mt (DistTag.marks_iff_of_text unknown _).mp lacks)

section Sample

/-- A package that installs the program of `Chain.sampleTool`, with another release. -/
def sampleRelease (release : String) : InstalledPackage :=
  { Chain.sampleTool with record := { Chain.sampleTool.record with release } }

/-- The program comes with a release that holds the word, and then with one that does not. -/
def sampleReplacement : List ChainLink :=
  [Chain.sampleLink 0 (some [sampleRelease "1.unknown"]) "usr/bin/tool",
    Chain.sampleLink 1 (some [sampleRelease "2"]) "usr/bin/tool"]

private theorem modifies_sampleReplacement :
    (Chain.build .empty sampleReplacement).Modifies 1 "usr/bin/tool" ⟨"usr/bin/tool", 0o755⟩
      (sampleRelease "1.unknown").record.key (sampleRelease "2").record.key :=
  ⟨by decide, by decide +kernel, by decide +kernel, by decide +kernel⟩

/-- Without a declared platform the replacement still counts as built for the platform no more. -/
theorem exists_restsOnTag_unknown_iff_sample :
    (DistTag.ofOsRelease "").text = "unknown" ∧
      ∃ finding ∈ (classify ⟨DistTag.ofOsRelease "", standardVendor⟩
        (Chain.build .empty sampleReplacement)).findings, finding.verdict.restsOnTag = true := by
  have unknown : (DistTag.ofOsRelease "").text = "unknown" := by decide +kernel
  refine ⟨unknown, (exists_restsOnTag_unknown_iff .empty sampleReplacement "" standardVendor
    unknown).mpr ⟨1, "usr/bin/tool", _, _, _, modifies_sampleReplacement, .inr ?_⟩⟩
  exact ⟨by decide, by decide +kernel, by decide +kernel⟩

/-- An unknown tag does decide verdicts. -/
theorem not_forall_unknown_restsOnTag_eq_false :
    ¬ ∀ (policy : ExclusionPolicy) (links : List ChainLink) (content vendor : String),
      (DistTag.ofOsRelease content).text = "unknown" →
      ∀ finding ∈ (classify ⟨DistTag.ofOsRelease content, vendor⟩
        (Chain.build policy links)).findings,
        finding.verdict ≠ .warned .releaseLacksDistTag ∧
          finding.verdict ≠ .disallowed .distTagRegression := by
  intro silent
  have decided : DecidedByTag ⟨DistTag.ofOsRelease "", standardVendor⟩
      (Chain.build .empty sampleReplacement) 1 "usr/bin/tool" ⟨"usr/bin/tool", 0o755⟩
      (sampleRelease "1.unknown").record.key (sampleRelease "2").record.key :=
    .regressed (by decide) (by unfold DistTag.Marks; decide +kernel)
      (by unfold DistTag.Marks; decide +kernel)
  obtain ⟨finding, member, rests⟩ := (exists_restsOnTag_iff ..).mpr
    ⟨1, "usr/bin/tool", _, _, _, modifies_sampleReplacement, decided⟩
  obtain ⟨noWarning, noFailure⟩ :=
    silent .empty sampleReplacement "" standardVendor (by decide +kernel) finding member
  exact (finding.verdict.restsOnTag_iff.mp rests).elim noWarning noFailure

end Sample

end Classifier

end ImageAudit
