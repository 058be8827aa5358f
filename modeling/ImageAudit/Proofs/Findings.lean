import ImageAudit.Proofs.Modification
import ImageAudit.Proofs.Text.ByteOrder

/-! # Findings, layer by layer

The classifier walks up the chain and keeps the layers that it has passed. What it reports is, layer
by layer, what each position of the chain gives on its own. A finding stands for a modification: it
names the two owners, and its verdict is the judgement on their records and on the mode before and
after. The findings of one position stand in the order of the bytes of their paths.
-/

namespace ImageAudit

/-- One finding is listed before another: by layer, then by the bytes of the path. -/
def Finding.Precedes (first second : Finding) : Prop :=
  first.layerIndex < second.layerIndex ∨ first.layerIndex = second.layerIndex ∧
    Bytes.ofText first.path < Bytes.ofText second.path

namespace Classifier

/-- The verdict on a file that goes from one owner to another, perhaps the same. -/
def judge (classifier : Classifier) (previous current : PackageKey) (modeBefore modeAfter : UInt32)
    (before after : PackageRecord) : Verdict :=
  if current = previous then classifier.judgeSameOwner modeBefore modeAfter before after
  else classifier.judgeNewOwner before after

def findingsAt (classifier : Classifier) (chain : Chain) : Nat → List Finding
  | 0 => []
  | position + 1 =>
    match chain[position + 1]?, chain[position]? with
    | some layer, some below => classifier.layerFindings layer below (chain.take position).reverse
    | _, _ => []

private theorem findingsAt_middle (classifier : Classifier) (older : List LayerRecord)
    (below layer : LayerRecord) (rest : Chain) :
    classifier.findingsAt (older.reverse ++ below :: layer :: rest) (older.length + 1) =
      classifier.layerFindings layer below older := by
  simp [findingsAt]

private theorem findingsAbove_eq_flatMap (classifier : Classifier) (older : List LayerRecord)
    (below : LayerRecord) (rest : Chain) :
    classifier.findingsAbove (below :: older) rest =
      (List.range rest.length).flatMap fun distance =>
        classifier.findingsAt (older.reverse ++ below :: rest) (older.length + 1 + distance) := by
  induction rest generalizing below older with
  | nil => rfl
  | cons layer rest ih =>
    have same : (below :: older).reverse ++ layer :: rest =
        older.reverse ++ below :: layer :: rest := by
      rw [List.reverse_cons, List.append_assoc, List.singleton_append]
    rw [findingsAbove, ih, same]
    simp only [List.length_cons, List.range_succ_eq_map, List.flatMap_cons, List.flatMap_map,
      findingsAt_middle, Nat.succ_eq_add_one, Nat.add_assoc, Nat.add_comm 1]

/-- The report lists what each position gives, from the base up. -/
theorem findings_classify (classifier : Classifier) (chain : Chain) :
    (classifier.classify chain).findings =
      (List.range chain.length).flatMap (classifier.findingsAt chain) := by
  cases chain with
  | nil => rfl
  | cons base rest =>
    rw [classify, findingsAbove, findingsAbove_eq_flatMap, List.length_cons,
      List.range_succ_eq_map, List.flatMap_cons, List.flatMap_map]
    simp [findingsAt, Nat.add_comm]

/-- What a finding at a position of a chain rests on. -/
structure Grounds (classifier : Classifier) (chain : Chain) (position : Nat) (finding : Finding)
    (file : FileRecord) (mode : UInt32) (before after : PackageRecord) : Prop where
  modifies : chain.Modifies position finding.path file finding.previous finding.package
  modeBelow : chain.ModeBelow position finding.path mode
  recordBefore : chain.packageAt? (position - 1) finding.previous = some before
  recordAfter : chain.packageAt? position finding.package = some after
  layer : chain[position]?.map (fun record => (record.index, record.layerId)) =
    some (finding.layerIndex, finding.layerId)
  verdict : finding.verdict =
    classifier.judge finding.previous finding.package mode file.mode before after

theorem finding?_eq_some_iff (classifier : Classifier) (layer below : LayerRecord)
    (older : List LayerRecord) (path : String) (file : FileRecord) (finding : Finding) :
    classifier.finding? layer below older path file = some finding ↔
      finding.path = path ∧ (layer.index, layer.layerId) = (finding.layerIndex, finding.layerId) ∧
      layer.state.owned.owner? path = some finding.package ∧
      below.state.owned.owner? path = some finding.previous ∧
      ∃ before after, below.state.packages.record? finding.previous = some before ∧
        layer.state.packages.record? finding.package = some after ∧
        finding.verdict = classifier.judge finding.previous finding.package
          (modeBelow (below :: older) path) file.mode before after := by
  simp only [finding?, Option.bind_eq_bind, Option.bind_eq_some_iff, Option.pure_def,
    Option.some.injEq]
  constructor
  · rintro ⟨current, owned, previous, ownedBelow, after, recordAfter, before, recordBefore, rfl⟩
    exact ⟨rfl, rfl, owned, ownedBelow, before, after, recordBefore, recordAfter, rfl⟩
  · rintro ⟨rfl, place, owned, ownedBelow, before, after, recordBefore, recordAfter, verdict⟩
    obtain ⟨index, layerId⟩ := Prod.mk.inj place
    refine ⟨_, owned, _, ownedBelow, after, recordAfter, before, recordBefore, ?_⟩
    rw [index, layerId, ← judge, ← verdict]

private theorem mem_layerFindings_iff (classifier : Classifier) (layer below : LayerRecord)
    (older : List LayerRecord) (finding : Finding) :
    finding ∈ classifier.layerFindings layer below older ↔
      ∃ file, layer.changed[finding.path]? = some file ∧
        classifier.finding? layer below older finding.path file = some finding := by
  simp only [layerFindings, List.mem_filterMap, Prod.exists,
    Std.TreeMap.mem_toList_iff_getElem?_eq_some]
  constructor
  · rintro ⟨path, file, written, found⟩
    obtain rfl := ((finding?_eq_some_iff ..).mp found).1
    exact ⟨file, written, found⟩
  · rintro ⟨file, written, found⟩
    exact ⟨finding.path, file, written, found⟩

theorem layerFindings_pairwise (classifier : Classifier) (layer below : LayerRecord)
    (older : List LayerRecord) :
    (classifier.layerFindings layer below older).Pairwise Finding.Precedes := by
  rw [layerFindings, List.pairwise_filterMap]
  refine Std.TreeMap.ordered_keys_toList.imp ?_
  rintro ⟨path, file⟩ ⟨path', file'⟩ before finding found finding' found'
  obtain ⟨rfl, place, _⟩ := (finding?_eq_some_iff ..).mp found
  obtain ⟨rfl, place', _⟩ := (finding?_eq_some_iff ..).mp found'
  refine .inr ⟨?_, Bytes.ofText_lt_of_compare before⟩
  exact (congrArg Prod.fst place).symm.trans (congrArg Prod.fst place')

theorem reverse_take_succ {chain : Chain} {position : Nat} {below : LayerRecord}
    (presentBelow : chain[position]? = some below) :
    (chain.take (position + 1)).reverse = below :: (chain.take position).reverse := by
  rw [List.take_add_one, presentBelow, Option.toList_some, List.reverse_append,
    List.reverse_singleton, List.singleton_append]

/-- A position gives the findings that have grounds in the chain there, and no others. -/
theorem mem_findingsAt_iff (classifier : Classifier) (chain : Chain) (position : Nat)
    (finding : Finding) :
    finding ∈ classifier.findingsAt chain position ↔
      ∃ file mode before after,
        classifier.Grounds chain position finding file mode before after := by
  constructor
  · intro member
    cases position with
    | zero => cases member
    | succ position =>
      simp only [findingsAt] at member
      split at member
      · rename_i layer below present presentBelow
        obtain ⟨file, written, found⟩ := (mem_layerFindings_iff ..).mp member
        obtain ⟨_, place, owned, ownedBelow, before, after, recordBefore, recordAfter, verdict⟩ :=
          (finding?_eq_some_iff ..).mp found
        have mode := Chain.modeBelow_reverse_take chain (position + 1) finding.path
        rw [reverse_take_succ presentBelow] at mode
        refine ⟨file, _, before, after, ⟨Nat.succ_pos position, ?_, ?_, ?_⟩, mode, ?_, ?_, ?_,
          verdict⟩
        · rw [Chain.fileAt?, present, Option.bind_some, written]
        · rw [Chain.ownerAt?, present, Option.bind_some, owned]
        · rw [Chain.ownerAt?, Nat.add_sub_cancel, presentBelow, Option.bind_some, ownedBelow]
        · rw [Chain.packageAt?, Nat.add_sub_cancel, presentBelow, Option.bind_some, recordBefore]
        · rw [Chain.packageAt?, present, Option.bind_some, recordAfter]
        · rw [present, Option.map_some, place]
      · cases member
  · rintro ⟨file, mode, before, after, grounds⟩
    obtain ⟨position, rfl⟩ := Nat.exists_eq_add_of_le' grounds.modifies.aboveBase
    obtain ⟨layer, present, written⟩ := Option.bind_eq_some_iff.mp grounds.modifies.writes
    obtain ⟨below, presentBelow, ownedBelow⟩ :=
      Option.bind_eq_some_iff.mp grounds.modifies.ownedBelow
    rw [Nat.add_sub_cancel] at presentBelow
    have owned := grounds.modifies.owned
    have recordBefore := grounds.recordBefore
    have recordAfter := grounds.recordAfter
    have place := grounds.layer
    simp only [Chain.ownerAt?, Chain.packageAt?, Nat.add_sub_cancel, present, presentBelow,
      Option.bind_some, Option.map_some] at owned recordBefore recordAfter place
    have mode := grounds.modeBelow.unique (Chain.modeBelow_reverse_take ..)
    rw [reverse_take_succ presentBelow] at mode
    simp only [findingsAt, present, presentBelow]
    refine (mem_layerFindings_iff ..).mpr ⟨file, written, (finding?_eq_some_iff ..).mpr ?_⟩
    refine ⟨rfl, Option.some.inj place, owned, ownedBelow, before, after, recordBefore, recordAfter,
      ?_⟩
    rw [← mode]
    exact grounds.verdict

theorem mem_findings_iff (classifier : Classifier) (chain : Chain) (finding : Finding) :
    finding ∈ (classifier.classify chain).findings ↔
      ∃ position file mode before after,
        classifier.Grounds chain position finding file mode before after := by
  simp only [findings_classify, List.mem_flatMap, List.mem_range, mem_findingsAt_iff]
  constructor
  · rintro ⟨position, _, grounds⟩
    exact ⟨position, grounds⟩
  · rintro ⟨position, file, mode, before, after, grounds⟩
    obtain ⟨layer, present, _⟩ := Option.bind_eq_some_iff.mp grounds.modifies.writes
    exact ⟨position, (List.getElem?_eq_some_iff.mp present).1, file, mode, before, after, grounds⟩

section Built

variable {classifier : Classifier} {policy : ExclusionPolicy} {links : List ChainLink}
variable {position : Nat} {path : String} {file : FileRecord} {previous current : PackageKey}

/-- Every modification of a built chain is reported, under its two owners. -/
theorem exists_grounds_of_modifies (classifier : Classifier)
    (modified : (Chain.build policy links).Modifies position path file previous current) :
    ∃ finding mode before after,
      classifier.Grounds (Chain.build policy links) position finding file mode before after ∧
        finding.path = path ∧ finding.previous = previous ∧ finding.package = current := by
  obtain ⟨before, recordBefore, _⟩ := Chain.exists_package_of_owner modified.ownedBelow
  obtain ⟨after, recordAfter, _⟩ := Chain.exists_package_of_owner modified.owned
  obtain ⟨layer, present, _⟩ := Option.bind_eq_some_iff.mp modified.writes
  have below := Chain.modeBelow_reverse_take (Chain.build policy links) position path
  generalize modeBelow ((Chain.build policy links).take position).reverse path = mode at below
  refine ⟨⟨layer.index, layer.layerId, path, current, previous,
    classifier.judge previous current mode file.mode before after⟩, mode, before, after,
    ⟨modified, below, recordBefore, recordAfter, ?_, rfl⟩, rfl, rfl, rfl⟩
  rw [present, Option.map_some]

/-- In a built chain the records behind a finding are those of the owners that it names. -/
theorem Grounds.keys {finding : Finding} {mode : UInt32} {before after : PackageRecord}
    (grounds : classifier.Grounds (Chain.build policy links) position finding file mode before
      after) : before.key = finding.previous ∧ after.key = finding.package := by
  obtain ⟨before', recordBefore, sameBefore⟩ :=
    Chain.exists_package_of_owner grounds.modifies.ownedBelow
  obtain ⟨after', recordAfter, sameAfter⟩ := Chain.exists_package_of_owner grounds.modifies.owned
  rw [grounds.recordBefore] at recordBefore
  rw [grounds.recordAfter] at recordAfter
  cases recordBefore
  cases recordAfter
  exact ⟨sameBefore, sameAfter⟩

/-- Where the layers come in order, a finding gives the position that it was made at. -/
theorem Grounds.layerIndex_eq {finding : Finding} {mode : UInt32} {before after : PackageRecord}
    (ordered : Chain.InOrder links)
    (grounds : classifier.Grounds (Chain.build policy links) position finding file mode before
      after) : finding.layerIndex = position := by
  have place := grounds.layer
  rw [Chain.getElem?_build, Option.map_map] at place
  obtain ⟨link, present, same⟩ := Option.map_eq_some_iff.mp place
  rw [← ordered.index present]
  exact (congrArg Prod.fst same).symm

end Built

end Classifier

end ImageAudit
