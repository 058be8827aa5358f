import ImageAudit.Classifier
import ImageAudit.Proofs.Text.Occurrence

/-! # When a verdict fails the image

The tests of the classifier are made in order, and the first that holds decides. A file that stays
with its package fails the image exactly when none of them accounts for the change; a file that goes
to another package fails it exactly when platform or architecture get worse.
-/

namespace ImageAudit

/-- A set-id bit is set in the first mode and clear in the second. -/
def FileMode.LosesSetId (before after : UInt32) : Prop :=
  ∃ bit ∈ [setUser, setGroup], has before bit = true ∧ has after bit = false

namespace DistTag

/-- A package release holds the tag. -/
def Marks (tag : DistTag) (release : String) : Prop := tag.text.toList <:+: release.toList

/-- A tag was found and a package release does not hold it. -/
def Rejects (tag : DistTag) (release : String) : Prop :=
  ∃ text, tag = known text ∧ ¬ text.toList <:+: release.toList

theorem isIn_iff (tag : DistTag) (release : String) : tag.isIn release = true ↔ tag.Marks release :=
  Text.contains_iff release tag.text

theorem rejects_iff (tag : DistTag) (release : String) :
    (tag.isKnown && !tag.isIn release) = true ↔ tag.Rejects release := by
  cases tag with
  | known text =>
    rw [isKnown, Bool.true_and, Bool.not_eq_true', ← Bool.not_eq_true, isIn_iff]
    constructor
    · exact fun missing => ⟨text, rfl, missing⟩
    · rintro ⟨_, same, missing⟩
      cases same
      exact missing
  | unknown =>
    constructor
    · exact fun absurdity => Bool.noConfusion absurdity
    · rintro ⟨_, same, _⟩
      cases same

end DistTag

namespace Classifier

theorem setIdDropped_iff (before after : UInt32) :
    setIdDropped before after = true ↔ FileMode.LosesSetId before after := by
  simp [setIdDropped, bitDropped, FileMode.LosesSetId]

/-- Nothing accounts for a change to a file that stays with its package. -/
structure Tampers (classifier : Classifier) (modeBefore modeAfter : UInt32) (release : String)
    (before after : PackageRecord) : Prop where
  keepsSetId : ¬ FileMode.LosesSetId modeBefore modeAfter
  ofPlatform : ¬ classifier.distTag.Rejects release
  trusted : before.vendor = classifier.trustedVendor ∨ after.vendor = classifier.trustedVendor
  notReinstalled : after.installTime ≤ before.installTime

/-- The verdict on a file that stays with its package, each test after those before it. -/
inductive KeepsOwner (classifier : Classifier) (modeBefore modeAfter : UInt32) (release : String)
    (before after : PackageRecord) : Verdict → Prop where
  | setIdBitsRemoved (lost : FileMode.LosesSetId modeBefore modeAfter) :
      KeepsOwner classifier modeBefore modeAfter release before after (.allowed .setIdBitsRemoved)
  | releaseLacksDistTag (kept : ¬ FileMode.LosesSetId modeBefore modeAfter)
      (rejected : classifier.distTag.Rejects release) :
      KeepsOwner classifier modeBefore modeAfter release before after (.warned .releaseLacksDistTag)
  | untrustedVendor (kept : ¬ FileMode.LosesSetId modeBefore modeAfter)
      (ofPlatform : ¬ classifier.distTag.Rejects release)
      (untrusted : before.vendor ≠ classifier.trustedVendor ∧
        after.vendor ≠ classifier.trustedVendor) :
      KeepsOwner classifier modeBefore modeAfter release before after (.warned .untrustedVendor)
  | reinstalled (kept : ¬ FileMode.LosesSetId modeBefore modeAfter)
      (ofPlatform : ¬ classifier.distTag.Rejects release)
      (trusted : before.vendor = classifier.trustedVendor ∨ after.vendor = classifier.trustedVendor)
      (later : before.installTime < after.installTime) :
      KeepsOwner classifier modeBefore modeAfter release before after (.allowed .reinstalled)
  | modifiedOutsidePackageManager
      (tampers : classifier.Tampers modeBefore modeAfter release before after) :
      KeepsOwner classifier modeBefore modeAfter release before after
        (.disallowed .modifiedOutsidePackageManager)

theorem judgeSameOwner_keepsOwner (classifier : Classifier) (modeBefore modeAfter : UInt32)
    (before after : PackageRecord) :
    classifier.KeepsOwner modeBefore modeAfter after.release before after
      (classifier.judgeSameOwner modeBefore modeAfter before after) := by
  unfold judgeSameOwner
  split
  · rename_i lost
    exact .setIdBitsRemoved ((setIdDropped_iff ..).mp lost)
  rename_i kept
  rw [setIdDropped_iff] at kept
  split
  · rename_i rejected
    exact .releaseLacksDistTag kept ((DistTag.rejects_iff ..).mp rejected)
  rename_i ofPlatform
  rw [DistTag.rejects_iff] at ofPlatform
  split
  · rename_i untrusted
    simp only [Bool.and_eq_true, bne_iff_ne] at untrusted
    exact .untrustedVendor kept ofPlatform untrusted.symm
  rename_i trusted
  simp only [Bool.and_eq_true, bne_iff_ne, ← not_or, Decidable.not_not] at trusted
  split
  · rename_i later
    exact .reinstalled kept ofPlatform trusted.symm later
  · rename_i notLater
    exact .modifiedOutsidePackageManager ⟨kept, ofPlatform, trusted.symm, Int64.not_lt.mp notLater⟩

theorem KeepsOwner.isDisallowed_iff {classifier : Classifier} {modeBefore modeAfter : UInt32}
    {release : String} {before after : PackageRecord} {verdict : Verdict}
    (kept : classifier.KeepsOwner modeBefore modeAfter release before after verdict) :
    verdict.isDisallowed = true ↔
      classifier.Tampers modeBefore modeAfter release before after := by
  cases kept with
  | setIdBitsRemoved lost =>
    exact iff_of_false Bool.false_ne_true fun tampers => tampers.keepsSetId lost
  | releaseLacksDistTag _ rejected =>
    exact iff_of_false Bool.false_ne_true fun tampers => tampers.ofPlatform rejected
  | untrustedVendor _ _ untrusted =>
    exact iff_of_false Bool.false_ne_true fun tampers =>
      tampers.trusted.elim untrusted.1 untrusted.2
  | reinstalled _ _ _ later =>
    exact iff_of_false Bool.false_ne_true fun tampers =>
      Int64.not_le.mpr later tampers.notReinstalled
  | modifiedOutsidePackageManager tampers => exact iff_of_true rfl tampers

/-- The new package of a file is worse than the old one in platform or architecture. -/
def Degrades (classifier : Classifier) (previous current : PackageKey) : Prop :=
  (classifier.distTag.Marks previous.release ∧ ¬ classifier.distTag.Marks current.release) ∨
    previous.arch ≠ current.arch

theorem judgeNewOwner_isDisallowed_iff (classifier : Classifier) (before after : PackageRecord) :
    (classifier.judgeNewOwner before after).isDisallowed = true ↔
      classifier.Degrades before.key after.key := by
  have regresses : (classifier.distTag.isIn before.release &&
      !classifier.distTag.isIn after.release) = true ↔
      classifier.distTag.Marks before.release ∧ ¬ classifier.distTag.Marks after.release := by
    rw [Bool.and_eq_true, Bool.not_eq_true', ← Bool.not_eq_true, DistTag.isIn_iff, DistTag.isIn_iff]
  unfold judgeNewOwner
  split
  · rename_i regression
    exact iff_of_true rfl (.inl (regresses.mp regression))
  rename_i noRegression
  split
  · rename_i differs
    exact iff_of_true rfl (.inr (bne_iff_ne.mp differs))
  · rename_i same
    refine iff_of_false Bool.false_ne_true ?_
    rintro (regression | differs)
    · exact noRegression (regresses.mpr regression)
    · exact same (bne_iff_ne.mpr differs)

end Classifier

end ImageAudit
