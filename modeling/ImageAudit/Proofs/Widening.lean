import ImageAudit.Proofs.Findings

/-! # Wider policies only drop findings

Rules act where the owners of a layer are settled, on each path apart from all others. So the chain
of a wider policy differs from the chain of the narrower one in nothing but the owners of the paths
that the wider policy leaves out, and its findings are those of the narrower one on all other paths.
-/

namespace ImageAudit

namespace Chain

/-- With a wider policy a path keeps its owner or, where it is left out, loses it. -/
private theorem owner?_stateAfter_of_within {narrow wide : ExclusionPolicy}
    (within : narrow.Within wide) (links : List ChainLink) (path : String) :
    (stateAfter wide links).owned.owner? path =
      if wide.excludes path then none else (stateAfter narrow links).owned.owner? path := by
  induction links using List.reverseRecOn with
  | nil => simp [stateAfter, PackageState.empty]
  | append_singleton links link ih =>
    rw [stateAfter_concat, stateAfter_concat, ChainLink.ownState?, ChainLink.ownState?]
    cases link.contents.packages with
    | none => exact ih
    | some packages =>
      simp only [Option.map_some, Option.getD_some, PackageState.ofPackages,
        OwnershipMap.owner?_resolve_eq_ite wide, OwnershipMap.owner?_resolve_eq_ite narrow]
      by_cases excluded : wide.excludes path = true
      · rw [if_pos excluded, if_pos excluded]
      · have included : ¬ narrow.excludes path = true := fun less => excluded (within.excludes less)
        rw [if_neg excluded, if_neg excluded, if_neg included]

private theorem packages_stateAfter (policy policy' : ExclusionPolicy) (links : List ChainLink) :
    (stateAfter policy links).packages = (stateAfter policy' links).packages := by
  induction links using List.reverseRecOn with
  | nil => rfl
  | append_singleton links link ih =>
    rw [stateAfter_concat, stateAfter_concat, ChainLink.ownState?, ChainLink.ownState?]
    cases link.contents.packages with
    | none => exact ih
    | some packages => rfl

end Chain

/-- A record differs from another one only in the owners of the paths that a policy leaves out,
which it lacks. -/
structure LayerRecord.Restricts (record : LayerRecord) (policy : ExclusionPolicy)
    (other : LayerRecord) : Prop where
  place : (record.index, record.layerId) = (other.index, other.layerId)
  changed : record.changed = other.changed
  packages : record.state.packages = other.state.packages
  owner : ∀ path, record.state.owned.owner? path =
    if policy.excludes path then none else other.state.owned.owner? path

private theorem ChainLink.record_restricts {narrow wide : ExclusionPolicy}
    (within : narrow.Within wide) (link : ChainLink) (links : List ChainLink) :
    (link.record (Chain.stateAfter wide links)).Restricts wide
      (link.record (Chain.stateAfter narrow links)) where
  place := rfl
  changed := rfl
  packages := Chain.packages_stateAfter wide narrow links
  owner := Chain.owner?_stateAfter_of_within within links

namespace Classifier

variable (classifier : Classifier) {policy : ExclusionPolicy}
variable {layer below layer' below' : LayerRecord} {older older' : List LayerRecord}

private theorem filter_finding? (policy : ExclusionPolicy) (path : String) (file : FileRecord) :
    ((classifier.finding? layer below older path file).filter
        fun finding => !policy.excludes finding.path) =
      if policy.excludes path then none else classifier.finding? layer below older path file := by
  cases found : classifier.finding? layer below older path file with
  | none => split <;> rfl
  | some finding =>
    have about : finding.path = path := ((finding?_eq_some_iff ..).mp found).1
    cases excluded : policy.excludes path <;> simp [Option.filter, about, excluded]

private theorem finding?_of_restricts (upper : layer.Restricts policy layer')
    (lower : below.Restricts policy below') (path : String)
    (mode : modeBelow (below :: older) path = modeBelow (below' :: older') path)
    (file : FileRecord) :
    classifier.finding? layer below older path file =
      (classifier.finding? layer' below' older' path file).filter
        fun finding => !policy.excludes finding.path := by
  rw [filter_finding?]
  by_cases excluded : policy.excludes path = true
  · rw [if_pos excluded, finding?, upper.owner, if_pos excluded]
    rfl
  · obtain ⟨index, layerId⟩ := Prod.mk.inj upper.place
    rw [if_neg excluded]
    simp only [finding?, upper.owner, lower.owner, if_neg excluded, upper.packages,
      lower.packages, mode, index, layerId]

private theorem layerFindings_of_restricts (upper : layer.Restricts policy layer')
    (lower : below.Restricts policy below')
    (mode : ∀ path, modeBelow (below :: older) path = modeBelow (below' :: older') path) :
    classifier.layerFindings layer below older =
      (classifier.layerFindings layer' below' older').filter
        fun finding => !policy.excludes finding.path := by
  rw [layerFindings, layerFindings, List.filter_filterMap, upper.changed]
  congr
  funext entry
  obtain ⟨path, file⟩ := entry
  exact classifier.finding?_of_restricts upper lower path (mode path) file

private theorem findingsAt_of_within {narrow wide : ExclusionPolicy} (within : narrow.Within wide)
    (links : List ChainLink) (position : Nat) :
    classifier.findingsAt (Chain.build wide links) position =
      (classifier.findingsAt (Chain.build narrow links) position).filter
        fun finding => !wide.excludes finding.path := by
  cases position with
  | zero => rfl
  | succ position =>
    have presentWide := Chain.getElem?_build wide links position
    have presentNarrow := Chain.getElem?_build narrow links position
    simp only [findingsAt, Chain.getElem?_build _ _ (position + 1), presentWide, presentNarrow]
    cases lower : links[position]? with
    | none => cases links[position + 1]? <;> rfl
    | some below =>
      cases links[position + 1]? with
      | none => rfl
      | some layer =>
        rw [lower, Option.map_some] at presentWide presentNarrow
        refine classifier.layerFindings_of_restricts (layer.record_restricts within _)
          (below.record_restricts within _) ?_
        intro path
        rw [← reverse_take_succ presentWide, ← reverse_take_succ presentNarrow]
        refine ((Chain.modeBelow_reverse_take ..).transfer ?_).unique
          (Chain.modeBelow_reverse_take ..)
        intro source _
        rw [Chain.fileAt?_build, Chain.fileAt?_build]

/-- Widening the policy drops the findings on the paths that it leaves out then, and changes
nothing else. An image that passed still passes. -/
theorem findings_of_within {narrow wide : ExclusionPolicy} (within : narrow.Within wide)
    (links : List ChainLink) :
    (classifier.classify (Chain.build wide links)).findings =
        (classifier.classify (Chain.build narrow links)).findings.filter
          (fun finding => !wide.excludes finding.path) ∧
      (classifier.classify (Chain.build wide links)).layers =
        (classifier.classify (Chain.build narrow links)).layers ∧
      ((classifier.classify (Chain.build narrow links)).passed = true →
        (classifier.classify (Chain.build wide links)).passed = true) := by
  have filtered : (classifier.classify (Chain.build wide links)).findings =
      (classifier.classify (Chain.build narrow links)).findings.filter
        fun finding => !wide.excludes finding.path := by
    rw [findings_classify, findings_classify, Chain.length_build, Chain.length_build,
      List.filter_flatMap]
    congr
    funext position
    exact classifier.findingsAt_of_within within links position
  refine ⟨filtered, ?_, ?_⟩
  · simp only [classify, Chain.length_build]
  · intro passed
    simp only [Report.passed, Bool.not_eq_true', List.any_eq_false] at passed ⊢
    intro finding member
    rw [filtered] at member
    exact passed finding (List.mem_filter.mp member).1

/-- One further directory drops the finding on a program that was written again. -/
theorem findings_of_within_sample :
    ExclusionPolicy.standard.Within (ExclusionPolicy.append ⟨[], ["usr/bin/"], []⟩ .standard) ∧
      (Chain.build .standard Chain.sampleLinks).Modifies 2 "usr/bin/tool" ⟨"usr/bin/tool", 0o755⟩
        Chain.sampleTool.record.key Chain.sampleTool.record.key ∧
      (ExclusionPolicy.append ⟨[], ["usr/bin/"], []⟩ .standard).excludes "usr/bin/tool" = true ∧
      (classify ⟨.known "el9", standardVendor⟩ (Chain.build
          (ExclusionPolicy.append ⟨[], ["usr/bin/"], []⟩ .standard) Chain.sampleLinks)).findings =
        (classify ⟨.known "el9", standardVendor⟩
          (Chain.build .standard Chain.sampleLinks)).findings.filter fun finding =>
            !(ExclusionPolicy.append ⟨[], ["usr/bin/"], []⟩ .standard).excludes finding.path := by
  have within : ExclusionPolicy.standard.Within
      (ExclusionPolicy.append ⟨[], ["usr/bin/"], []⟩ .standard) :=
    ⟨List.subset_append_right .., List.subset_append_right .., List.subset_append_right ..⟩
  exact ⟨within, ⟨by decide, by decide, by decide, by decide⟩, by decide,
    (findings_of_within ⟨.known "el9", standardVendor⟩ within Chain.sampleLinks).1⟩

end Classifier

end ImageAudit
