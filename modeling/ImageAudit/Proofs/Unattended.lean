import ImageAudit.Proofs.Coverage
import ImageAudit.Proofs.Verdict

/-! # Layers without a package database

A layer without a database has the owners and the records of the layer below it. So what it writes
over an owned path stays with its package, whose record is not newer than itself, and nothing but
a dropped set-id bit, another platform or another vendor keeps the change from failing the image.
-/

namespace ImageAudit

namespace Chain

variable (policy : ExclusionPolicy) {links : List ChainLink} {position : Nat} {link : ChainLink}
variable (aboveBase : 1 ≤ position) (present : links[position]? = some link)
variable (noDatabase : link.contents.packages = none)
include aboveBase present noDatabase

/-- A layer without a database has the package state of the layer below. -/
theorem state_eq_below :
    (build policy links)[position]?.map (·.state) =
      (build policy links)[position - 1]?.map (·.state) := by
  obtain ⟨below, rfl⟩ := Nat.exists_eq_add_of_le' aboveBase
  have taken : links.take (below + 2) = links.take (below + 1) ++ [link] := by
    rw [List.take_add_one, present, Option.toList_some]
  have bound := (List.getElem?_eq_some_iff.mp present).1
  have presentBelow : links[below]? = some links[below] := List.getElem?_eq_getElem (by omega)
  rw [Nat.add_sub_cancel, getElem?_build, getElem?_build, present, presentBelow, taken,
    stateAfter_concat, ChainLink.ownState?, noDatabase]
  rfl

/-- Whatever is read from its state is what the state below gives. -/
private theorem bind_state_eq_below {α : Type} (read : PackageState → Option α) :
    (build policy links)[position]?.bind (fun record => read record.state) =
      (build policy links)[position - 1]?.bind (fun record => read record.state) := by
  have same := congrArg (·.bind read) (state_eq_below policy aboveBase present noDatabase)
  simp only [Option.bind_map] at same
  exact same

theorem ownerAt?_eq_below (path : String) :
    (build policy links).ownerAt? position path =
      (build policy links).ownerAt? (position - 1) path :=
  bind_state_eq_below policy aboveBase present noDatabase (·.owned.owner? path)

theorem packageAt?_eq_below (key : PackageKey) :
    (build policy links).packageAt? position key =
      (build policy links).packageAt? (position - 1) key :=
  bind_state_eq_below policy aboveBase present noDatabase (·.packages.record? key)

end Chain

namespace Classifier

/-- The verdict on a file that is written without a database, each test after those before it. -/
inductive Unattended (classifier : Classifier) (modeBefore modeAfter : UInt32)
    (release vendor : String) : Verdict → Prop where
  | setIdBitsRemoved (lost : FileMode.LosesSetId modeBefore modeAfter) :
      Unattended classifier modeBefore modeAfter release vendor (.allowed .setIdBitsRemoved)
  | releaseLacksDistTag (kept : ¬ FileMode.LosesSetId modeBefore modeAfter)
      (rejected : classifier.distTag.Rejects release) :
      Unattended classifier modeBefore modeAfter release vendor (.warned .releaseLacksDistTag)
  | untrustedVendor (kept : ¬ FileMode.LosesSetId modeBefore modeAfter)
      (ofPlatform : ¬ classifier.distTag.Rejects release)
      (untrusted : vendor ≠ classifier.trustedVendor) :
      Unattended classifier modeBefore modeAfter release vendor (.warned .untrustedVendor)
  | modifiedOutsidePackageManager (kept : ¬ FileMode.LosesSetId modeBefore modeAfter)
      (ofPlatform : ¬ classifier.distTag.Rejects release)
      (trusted : vendor = classifier.trustedVendor) :
      Unattended classifier modeBefore modeAfter release vendor
        (.disallowed .modifiedOutsidePackageManager)

variable {classifier : Classifier}

/-- A record is not newer than itself, so nothing counts as installed again. -/
private theorem KeepsOwner.unattended {modeBefore modeAfter : UInt32} {release : String}
    {package : PackageRecord} {verdict : Verdict}
    (keeps : classifier.KeepsOwner modeBefore modeAfter release package package verdict) :
    classifier.Unattended modeBefore modeAfter release package.vendor verdict := by
  cases keeps with
  | setIdBitsRemoved lost => exact .setIdBitsRemoved lost
  | releaseLacksDistTag kept rejected => exact .releaseLacksDistTag kept rejected
  | untrustedVendor kept ofPlatform untrusted =>
    exact .untrustedVendor kept ofPlatform untrusted.1
  | reinstalled _ _ _ later => exact absurd later (Int64.lt_irrefl)
  | modifiedOutsidePackageManager tampers =>
    exact .modifiedOutsidePackageManager tampers.keepsSetId tampers.ofPlatform
      (tampers.trusted.elim id id)

private theorem Grounds.unattended {policy : ExclusionPolicy} {links : List ChainLink}
    {position : Nat} {link : ChainLink} (aboveBase : 1 ≤ position)
    (present : links[position]? = some link) (noDatabase : link.contents.packages = none)
    {finding : Finding} {file : FileRecord} {mode : UInt32} {before after : PackageRecord}
    (grounds : classifier.Grounds (Chain.build policy links) position finding file mode before
      after) :
    finding.package = finding.previous ∧
      classifier.Unattended mode file.mode finding.previous.release before.vendor
        finding.verdict := by
  have owned := grounds.modifies.owned
  rw [Chain.ownerAt?_eq_below policy aboveBase present noDatabase, grounds.modifies.ownedBelow]
    at owned
  have same : finding.package = finding.previous := (Option.some.inj owned).symm
  have recordAfter := grounds.recordAfter
  rw [Chain.packageAt?_eq_below policy aboveBase present noDatabase, same, grounds.recordBefore]
    at recordAfter
  obtain rfl := Option.some.inj recordAfter
  refine ⟨same, ?_⟩
  rw [grounds.verdict, judge, if_pos same, ← grounds.keys.1]
  exact (judgeSameOwner_keepsOwner ..).unattended

private theorem Unattended.notMem {modeBefore modeAfter : UInt32} {release vendor : String}
    {verdict : Verdict}
    (unattended : classifier.Unattended modeBefore modeAfter release vendor verdict) :
    verdict ∉ ([.allowed .reinstalled, .allowed .upgraded, .disallowed .distTagRegression,
      .disallowed .architectureChanged] : List Verdict) := by
  cases unattended <;> decide

/-- What a layer without a database writes over an owned path is never credited to the package
manager. -/
theorem unattended_layer (policy : ExclusionPolicy) (links : List ChainLink)
    (ordered : Chain.InOrder links) (classifier : Classifier) (position : Nat) (link : ChainLink)
    (aboveBase : 1 ≤ position) (present : links[position]? = some link)
    (noDatabase : link.contents.packages = none) :
    (∀ path file owner, link.contents.changed[path]? = some file →
      (Chain.build policy links).ownerAt? (position - 1) path = some owner →
      ∃ finding mode package,
        (classifier.classify (Chain.build policy links)).findingsOn position path = [finding] ∧
        finding.package = owner ∧ finding.previous = owner ∧
        (Chain.build policy links).ModeBelow position path mode ∧
        (Chain.build policy links).packageAt? (position - 1) owner = some package ∧
        classifier.Unattended mode file.mode owner.release package.vendor finding.verdict) ∧
    ∀ finding ∈ (classifier.classify (Chain.build policy links)).findings,
      finding.layerIndex = position →
      finding.verdict ∉ ([.allowed .reinstalled, .allowed .upgraded,
        .disallowed .distTagRegression, .disallowed .architectureChanged] : List Verdict) := by
  constructor
  · intro path file owner written ownedBelow
    have modified : (Chain.build policy links).Modifies position path file owner owner := by
      refine ⟨aboveBase, ?_, ?_, ownedBelow⟩
      · rw [Chain.fileAt?_build, present, Option.bind_some, written]
      · rw [Chain.ownerAt?_eq_below policy aboveBase present noDatabase, ownedBelow]
    obtain ⟨finding, mode, before, after, grounds, rfl, rfl, _⟩ :=
      exists_grounds_of_modifies classifier modified
    obtain ⟨same, unattended⟩ := grounds.unattended aboveBase present noDatabase
    exact ⟨finding, mode, before, grounds.findingsOn_eq_singleton ordered, same, rfl,
      grounds.modeBelow, grounds.recordBefore, unattended⟩
  · rintro finding member rfl
    obtain ⟨place, file, mode, before, after, grounds⟩ := (mem_findings_iff ..).mp member
    obtain rfl := grounds.layerIndex_eq ordered
    exact (grounds.unattended aboveBase present noDatabase).2.notMem

/-- The program that is written again without a database has a finding under its one owner. -/
theorem unattended_layer_sample :
    Chain.InOrder Chain.sampleLinks ∧ 1 ≤ 2 ∧
      Chain.sampleLinks[2]? = some (Chain.sampleLink 2 none "usr/bin/tool") ∧
      (Chain.sampleLink 2 none "usr/bin/tool").contents.packages = none ∧
      ∃ finding mode package,
        (classify ⟨.known "el9", standardVendor⟩
          (Chain.build .standard Chain.sampleLinks)).findingsOn 2 "usr/bin/tool" = [finding] ∧
        finding.package = Chain.sampleTool.record.key ∧
        finding.previous = Chain.sampleTool.record.key ∧
        (Chain.build .standard Chain.sampleLinks).ModeBelow 2 "usr/bin/tool" mode ∧
        (Chain.build .standard Chain.sampleLinks).packageAt? 1 Chain.sampleTool.record.key =
          some package ∧
        Unattended ⟨.known "el9", standardVendor⟩ mode 0o755 "1.el9" package.vendor
          finding.verdict :=
  ⟨rfl, by decide, rfl, rfl,
    (unattended_layer .standard Chain.sampleLinks rfl ⟨.known "el9", standardVendor⟩ 2 _
      (by decide) rfl rfl).1 "usr/bin/tool" ⟨"usr/bin/tool", 0o755⟩ Chain.sampleTool.record.key
      (by decide) (by decide)⟩

end Classifier

end ImageAudit
