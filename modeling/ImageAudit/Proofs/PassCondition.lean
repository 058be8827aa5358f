import ImageAudit.Proofs.Findings
import ImageAudit.Proofs.Verdict

/-! # When an image fails

An image fails exactly when some layer above the base writes a file that it and the layer below own
and either the file stays with its package and nothing accounts for the change, or it goes to
another package that is worse in platform or architecture.
-/

namespace ImageAudit.Classifier

private theorem passed_eq_false_iff_exists (report : Report) :
    report.passed = false ↔ ∃ finding ∈ report.findings, finding.verdict.isDisallowed = true := by
  rw [Report.passed, Bool.not_eq_false', List.any_eq_true]

private theorem judge_isDisallowed_iff (classifier : Classifier) (modeBefore modeAfter : UInt32)
    (before after : PackageRecord) :
    (classifier.judge before.key after.key modeBefore modeAfter before after).isDisallowed = true ↔
      (after.key = before.key ∧
        classifier.Tampers modeBefore modeAfter after.key.release before after) ∨
      (after.key ≠ before.key ∧ classifier.Degrades before.key after.key) := by
  unfold judge
  split
  · rename_i same
    rw [(judgeSameOwner_keepsOwner ..).isDisallowed_iff]
    exact ⟨fun tampers => .inl ⟨same, tampers⟩, fun cases => cases.elim And.right (absurd same ·.1)⟩
  · rename_i differs
    rw [judgeNewOwner_isDisallowed_iff]
    exact ⟨fun degrades => .inr ⟨differs, degrades⟩,
      fun cases => cases.elim (absurd ·.1 differs) And.right⟩

/-- An image fails exactly when a file that two adjacent layers own was tampered with, or went to a
worse package. -/
theorem passed_eq_false_iff (policy : ExclusionPolicy) (links : List ChainLink)
    (classifier : Classifier) :
    (classifier.classify (Chain.build policy links)).passed = false ↔
      ∃ position path file previous current,
        (Chain.build policy links).Modifies position path file previous current ∧
        ((current = previous ∧ ∃ mode before after,
            (Chain.build policy links).ModeBelow position path mode ∧
            (Chain.build policy links).packageAt? (position - 1) previous = some before ∧
            (Chain.build policy links).packageAt? position current = some after ∧
            classifier.Tampers mode file.mode current.release before after) ∨
          (current ≠ previous ∧ classifier.Degrades previous current)) := by
  rw [passed_eq_false_iff_exists]
  constructor
  · rintro ⟨finding, member, disallowed⟩
    obtain ⟨position, file, mode, before, after, grounds⟩ := (mem_findings_iff ..).mp member
    obtain ⟨keyBefore, keyAfter⟩ := grounds.keys
    rw [grounds.verdict, ← keyBefore, ← keyAfter, judge_isDisallowed_iff, keyBefore, keyAfter]
      at disallowed
    refine ⟨position, finding.path, file, finding.previous, finding.package, grounds.modifies, ?_⟩
    rcases disallowed with ⟨same, tampers⟩ | degrades
    · exact .inl ⟨same, mode, before, after, grounds.modeBelow, grounds.recordBefore,
        grounds.recordAfter, tampers⟩
    · exact .inr degrades
  · rintro ⟨position, path, file, previous, current, modified, worse⟩
    obtain ⟨finding, mode, before, after, grounds, rfl, rfl, rfl⟩ :=
      exists_grounds_of_modifies classifier modified
    obtain ⟨keyBefore, keyAfter⟩ := grounds.keys
    refine ⟨finding, (mem_findings_iff ..).mpr ⟨position, file, mode, before, after, grounds⟩, ?_⟩
    rw [grounds.verdict, ← keyBefore, ← keyAfter, judge_isDisallowed_iff, keyBefore, keyAfter]
    rcases worse with ⟨same, mode', before', after', below, recordBefore, recordAfter, tampers⟩ |
      degrades
    · obtain rfl := below.unique grounds.modeBelow
      rw [grounds.recordBefore] at recordBefore
      rw [grounds.recordAfter] at recordAfter
      cases recordBefore
      cases recordAfter
      exact .inl ⟨same, tampers⟩
    · exact .inr degrades

end ImageAudit.Classifier
