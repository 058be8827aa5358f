import ImageAudit.Proofs.Findings
import Mathlib.Data.List.Basic

/-! # Chains that grow

A layer on top leaves the records below it as they are, and a position of a chain gives findings
that rest on the records up to it and on no others. So the report on a longer chain begins with the
report on the shorter one, and what it adds lies in the further layers. An image that failed fails
with any layers on top.
-/

namespace ImageAudit

/-- The records of some layers begin the records of these and any further ones. -/
theorem Chain.build_prefix (policy : ExclusionPolicy) (lower upper : List ChainLink) :
    build policy lower <+: build policy (lower ++ upper) := by
  induction upper using List.reverseRecOn with
  | nil => simp
  | append_singleton upper link ih =>
    rw [← List.append_assoc, build_append_singleton]
    exact ih.trans (List.prefix_append ..)

namespace Classifier

variable (classifier : Classifier) {chain extended : Chain}

private theorem findingsAt_of_prefix (grown : chain <+: extended) {position : Nat}
    (inside : position < chain.length) :
    classifier.findingsAt extended position = classifier.findingsAt chain position := by
  obtain ⟨above, rfl⟩ := grown
  cases position with
  | zero => rfl
  | succ position =>
    have insideBelow : position < chain.length := Nat.lt_of_succ_lt inside
    simp only [findingsAt, List.getElem?_append_left inside, List.getElem?_append_left insideBelow,
      List.take_append_of_le_length (Nat.le_of_lt insideBelow)]

/-- A longer chain keeps the findings of the shorter one and adds those of its own positions. -/
theorem findings_of_prefix (grown : chain <+: extended) :
    (classifier.classify extended).findings =
      (classifier.classify chain).findings ++
        (List.range (extended.length - chain.length)).flatMap fun distance =>
          classifier.findingsAt extended (chain.length + distance) := by
  have positions : List.range extended.length =
      List.range chain.length ++
        (List.range (extended.length - chain.length)).map (chain.length + ·) := by
    rw [← List.range_add, Nat.add_sub_cancel' grown.length_le]
  rw [findings_classify, findings_classify, positions, List.flatMap_append, List.flatMap_map]
  congr 1
  exact List.flatMap_congr fun position member =>
    classifier.findingsAt_of_prefix grown (List.mem_range.mp member)

/-- Layers on top leave the findings of the layers below as they are, so an image that failed
fails with them too. -/
theorem findings_append (policy : ExclusionPolicy) (lower upper : List ChainLink)
    (ordered : Chain.InOrder (lower ++ upper)) (classifier : Classifier) :
    (∃ above,
      (classifier.classify (Chain.build policy (lower ++ upper))).findings =
        (classifier.classify (Chain.build policy lower)).findings ++ above ∧
      ∀ finding ∈ above, lower.length ≤ finding.layerIndex) ∧
    ((classifier.classify (Chain.build policy lower)).passed = false →
      (classifier.classify (Chain.build policy (lower ++ upper))).passed = false) := by
  have kept := classifier.findings_of_prefix (Chain.build_prefix policy lower upper)
  refine ⟨⟨_, kept, ?_⟩, ?_⟩
  · intro finding member
    obtain ⟨distance, _, member⟩ := List.mem_flatMap.mp member
    obtain ⟨_, _, _, _, grounds⟩ := (mem_findingsAt_iff ..).mp member
    rw [grounds.layerIndex_eq ordered, Chain.length_build]
    exact Nat.le_add_right ..
  · intro failed
    rw [Report.passed, Bool.not_eq_false'] at failed ⊢
    rw [kept, List.any_append, failed, Bool.true_or]

/-- The program is written once more on top: the finding on the layer below stays the first. -/
theorem findings_append_sample :
    Chain.InOrder (Chain.sampleLinks ++ [Chain.sampleLink 3 none "usr/bin/tool"]) ∧
      (Chain.build .standard Chain.sampleLinks).Modifies 2 "usr/bin/tool" ⟨"usr/bin/tool", 0o755⟩
        Chain.sampleTool.record.key Chain.sampleTool.record.key ∧
      ∃ above,
        (classify ⟨.known "el9", standardVendor⟩ (Chain.build .standard
            (Chain.sampleLinks ++ [Chain.sampleLink 3 none "usr/bin/tool"]))).findings =
          (classify ⟨.known "el9", standardVendor⟩
            (Chain.build .standard Chain.sampleLinks)).findings ++ above ∧
        ∀ finding ∈ above, 3 ≤ finding.layerIndex := by
  have ordered : Chain.InOrder (Chain.sampleLinks ++ [Chain.sampleLink 3 none "usr/bin/tool"]) :=
    rfl
  exact ⟨ordered, ⟨by decide, by decide, by decide, by decide⟩,
    (findings_append .standard Chain.sampleLinks _ ordered _).1⟩

end Classifier

end ImageAudit
