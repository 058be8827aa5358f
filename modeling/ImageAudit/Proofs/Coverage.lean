import ImageAudit.Proofs.Findings

/-! # Each modification is reported once

Owners always have records, so no modification is passed over. The findings of a chain whose layers
come in order are strictly ordered by layer and path, so none is listed twice, and each one stands
for the modification that it names.
-/

namespace ImageAudit

def Report.findingsOn (report : Report) (layer : Nat) (path : String) : List Finding :=
  report.findings.filter fun finding => finding.layerIndex = layer ∧ finding.path = path

private theorem Finding.Precedes.distinct {first second : Finding}
    (precedes : first.Precedes second) :
    ¬ (first.layerIndex = second.layerIndex ∧ first.path = second.path) := by
  rintro ⟨sameLayer, samePath⟩
  rcases precedes with lower | ⟨_, smaller⟩
  · omega
  · rw [samePath] at smaller
    exact List.lt_irrefl _ smaller

/-- In a strictly ordered report a finding is the only one about its path in its layer. -/
theorem Report.findingsOn_eq_singleton {report : Report} {finding : Finding}
    (sorted : report.findings.Pairwise Finding.Precedes) (member : finding ∈ report.findings) :
    report.findingsOn finding.layerIndex finding.path = [finding] := by
  have about : ∀ other ∈ report.findingsOn finding.layerIndex finding.path,
      other.layerIndex = finding.layerIndex ∧ other.path = finding.path := by
    intro other present
    simpa using (List.mem_filter.mp present).2
  have present : finding ∈ report.findingsOn finding.layerIndex finding.path :=
    List.mem_filter.mpr ⟨member, by simp⟩
  have sorted' : (report.findingsOn finding.layerIndex finding.path).Pairwise Finding.Precedes :=
    sorted.filter _
  generalize report.findingsOn finding.layerIndex finding.path = found at about present sorted'
  match found with
  | [] => cases present
  | [only] => rw [List.mem_singleton.mp present]
  | first :: second :: rest =>
    have precedes := List.rel_of_pairwise_cons sorted' (List.mem_cons_self ..)
    obtain ⟨layer, path⟩ := about first (List.mem_cons_self ..)
    obtain ⟨layer', path'⟩ := about second (List.mem_cons_of_mem _ (List.mem_cons_self ..))
    exact absurd ⟨layer.trans layer'.symm, path.trans path'.symm⟩ precedes.distinct

namespace Classifier

/-- Where the layers come in order, the findings are listed by layer and then by path. -/
theorem findings_pairwise (policy : ExclusionPolicy) {links : List ChainLink}
    (ordered : Chain.InOrder links) (classifier : Classifier) :
    (classifier.classify (Chain.build policy links)).findings.Pairwise Finding.Precedes := by
  rw [findings_classify, List.pairwise_flatMap]
  constructor
  · intro position _
    cases position with
    | zero => exact .nil
    | succ position =>
      simp only [findingsAt]
      split
      · exact layerFindings_pairwise ..
      · exact .nil
  · refine List.pairwise_lt_range.imp ?_
    intro lower upper before first memberFirst second memberSecond
    obtain ⟨_, _, _, _, grounds⟩ := (mem_findingsAt_iff ..).mp memberFirst
    obtain ⟨_, _, _, _, grounds'⟩ := (mem_findingsAt_iff ..).mp memberSecond
    left
    rw [grounds.layerIndex_eq ordered, grounds'.layerIndex_eq ordered]
    exact before

/-- The grounds of a finding are those of the only one about its path in its layer. -/
theorem Grounds.findingsOn_eq_singleton {classifier : Classifier} {policy : ExclusionPolicy}
    {links : List ChainLink} {position : Nat} {finding : Finding} {file : FileRecord}
    {mode : UInt32} {before after : PackageRecord} (ordered : Chain.InOrder links)
    (grounds : classifier.Grounds (Chain.build policy links) position finding file mode before
      after) :
    (classifier.classify (Chain.build policy links)).findingsOn position finding.path =
      [finding] := by
  have member := (mem_findings_iff classifier _ finding).mpr ⟨_, _, _, _, _, grounds⟩
  have only := Report.findingsOn_eq_singleton (findings_pairwise policy ordered classifier) member
  rwa [grounds.layerIndex_eq ordered] at only

/-- No modification is lost, invented or listed twice, and every owner has its record. -/
theorem findings_exact (policy : ExclusionPolicy) (links : List ChainLink)
    (ordered : Chain.InOrder links) (classifier : Classifier) :
    (∀ record ∈ Chain.build policy links, record.state.Closed) ∧
      (∀ position path file previous current,
        (Chain.build policy links).Modifies position path file previous current →
        ∃ finding,
          (classifier.classify (Chain.build policy links)).findingsOn position path = [finding] ∧
          finding.previous = previous ∧ finding.package = current) ∧
      (∀ finding ∈ (classifier.classify (Chain.build policy links)).findings, ∃ file,
        (Chain.build policy links).Modifies finding.layerIndex finding.path file finding.previous
          finding.package) ∧
      (classifier.classify (Chain.build policy links)).findings.Pairwise Finding.Precedes := by
  refine ⟨fun record member => Chain.closed_of_mem_build member, ?_, ?_,
    findings_pairwise policy ordered classifier⟩
  · intro position path file previous current modified
    obtain ⟨finding, mode, before, after, grounds, rfl, samePrevious, sameCurrent⟩ :=
      exists_grounds_of_modifies classifier modified
    exact ⟨finding, grounds.findingsOn_eq_singleton ordered, samePrevious, sameCurrent⟩
  · intro finding member
    obtain ⟨position, file, mode, before, after, grounds⟩ := (mem_findings_iff ..).mp member
    rw [grounds.layerIndex_eq ordered]
    exact ⟨file, grounds.modifies⟩

/-- A program written again two layers above its package is reported once. -/
theorem findings_exact_sample :
    Chain.InOrder Chain.sampleLinks ∧
      (Chain.build .standard Chain.sampleLinks).Modifies 2 "usr/bin/tool" ⟨"usr/bin/tool", 0o755⟩
        Chain.sampleTool.record.key Chain.sampleTool.record.key ∧
      ∃ finding,
        (classify ⟨.known "el9", standardVendor⟩
          (Chain.build .standard Chain.sampleLinks)).findingsOn 2 "usr/bin/tool" = [finding] ∧
        finding.previous = Chain.sampleTool.record.key ∧
        finding.package = Chain.sampleTool.record.key := by
  have ordered : Chain.InOrder Chain.sampleLinks := rfl
  have modified : (Chain.build .standard Chain.sampleLinks).Modifies 2 "usr/bin/tool"
      ⟨"usr/bin/tool", 0o755⟩ Chain.sampleTool.record.key Chain.sampleTool.record.key :=
    ⟨by decide, by decide, by decide, by decide⟩
  exact ⟨ordered, modified,
    (findings_exact .standard Chain.sampleLinks ordered _).2.1 _ _ _ _ _ modified⟩

end Classifier

end ImageAudit
