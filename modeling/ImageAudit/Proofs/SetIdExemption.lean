import ImageAudit.Proofs.Coverage
import ImageAudit.Proofs.Verdict

/-! # What the exemption for dropped set-id bits lets through

A file that stays with its package and loses a set-id bit is let through before any other test is
made. The two set-id bits are looked at one by one and the other bits not at all. So the exemption
is for a mode that changes in these bits alone, and it is given just the same to a mode that gains
the other set-id bit or any permission.
-/

namespace ImageAudit

namespace FileMode

def bitAt (mode : UInt32) (place : Nat) : Bool := mode.toBitVec.getLsbD place

section Bits

variable {place : Nat}

theorem ext_bitAt {a b : UInt32} (same : ∀ place < 32, bitAt a place = bitAt b place) : a = b :=
  UInt32.toBitVec_inj.mp (BitVec.eq_of_getLsbD_eq same)

@[simp] theorem bitAt_zero (place : Nat) : bitAt 0 place = false := by simp [bitAt]

@[simp] theorem bitAt_and (a b : UInt32) (place : Nat) :
    bitAt (a &&& b) place = (bitAt a place && bitAt b place) := by simp [bitAt]

@[simp] theorem bitAt_or (a b : UInt32) (place : Nat) :
    bitAt (a ||| b) place = (bitAt a place || bitAt b place) := by simp [bitAt]

theorem bitAt_not (a : UInt32) (inside : place < 32) : bitAt (~~~a) place = !bitAt a place := by
  simp [bitAt, inside]

@[simp] theorem bitAt_setUser (place : Nat) : bitAt setUser place = decide (place = 11) := by
  have single : setUser.toBitVec = BitVec.twoPow 32 11 := by decide
  rw [bitAt, single, BitVec.getLsbD_twoPow]
  simp [eq_comm]

@[simp] theorem bitAt_setGroup (place : Nat) : bitAt setGroup place = decide (place = 10) := by
  have single : setGroup.toBitVec = BitVec.twoPow 32 10 := by decide
  rw [bitAt, single, BitVec.getLsbD_twoPow]
  simp [eq_comm]

theorem eq_zero_iff (mode : UInt32) : mode = 0 ↔ ∀ place < 32, bitAt mode place = false := by
  constructor
  · rintro rfl place _
    exact bitAt_zero place
  · intro clear
    exact ext_bitAt fun place inside => (clear place inside).trans (bitAt_zero place).symm

/-- A mode has a bit exactly when it is set at the place of the bit. -/
theorem has_eq_bitAt {bit : UInt32} (inside : place < 32)
    (single : ∀ other, bitAt bit other = decide (other = place)) (mode : UInt32) :
    has mode bit = bitAt mode place := by
  rw [has, Bool.eq_iff_iff, bne_iff_ne, ne_eq, eq_zero_iff]
  simp only [bitAt_and, single]
  grind

end Bits

/-- The bits that only the second mode has. -/
def gained (before after : UInt32) : UInt32 := after &&& ~~~before

/-- The bits that only the first mode has. -/
def lost (before after : UInt32) : UInt32 := before &&& ~~~after

/-- The second mode is the first one with one or both of the set-id bits cleared. -/
def DropsOnlySetId (before after : UInt32) : Prop :=
  ∃ dropped ∈ [setUser, setGroup, setUser ||| setGroup],
    before &&& dropped = dropped ∧ after = before &&& ~~~dropped

/-- A bit is gained, or one is lost that is no set-id bit. -/
def ChangesOtherwise (before after : UInt32) : Prop :=
  gained before after ≠ 0 ∨ lost before after &&& ~~~(setUser ||| setGroup) ≠ 0

section Dropped

variable {before after : UInt32}

theorem losesSetId_iff (before after : UInt32) : LosesSetId before after ↔
    bitAt (lost before after) 11 = true ∨ bitAt (lost before after) 10 = true := by
  simp only [LosesSetId, List.mem_cons, List.not_mem_nil, or_false, exists_eq_or_imp,
    exists_eq_left, has_eq_bitAt (by decide : 11 < 32) bitAt_setUser,
    has_eq_bitAt (by decide : 10 < 32) bitAt_setGroup, lost, bitAt_and,
    bitAt_not _ (by decide : 11 < 32), bitAt_not _ (by decide : 10 < 32), Bool.and_eq_true,
    Bool.not_eq_true']

/-- A mode that gains nothing is what is left of the other one without what is lost. -/
theorem eq_and_not_lost (none : gained before after = 0) :
    after = before &&& ~~~lost before after := by
  rw [gained, eq_zero_iff] at none
  refine ext_bitAt fun place inside => ?_
  have clear := none place inside
  simp only [lost, bitAt_and, bitAt_not _ inside] at clear ⊢
  grind

/-- What is lost is one of the set-id bits or both, where it is nothing else. -/
theorem lost_mem_of_losesSetId (loses : LosesSetId before after)
    (noOther : lost before after &&& ~~~(setUser ||| setGroup) = 0) :
    lost before after ∈ [setUser, setGroup, setUser ||| setGroup] := by
  rw [losesSetId_iff] at loses
  rw [eq_zero_iff] at noOther
  have places (place : Nat) (inside : place < 32) (set : bitAt (lost before after) place = true) :
      place = 11 ∨ place = 10 := by
    have clear := noOther place inside
    refine Decidable.or_iff_not_imp_left.mpr ?_
    simpa [set, bitAt_not _ inside] using clear
  generalize lost before after = dropped at loses places
  have only (mode : UInt32) (user : bitAt mode 11 = bitAt dropped 11)
      (group : bitAt mode 10 = bitAt dropped 10)
      (others : ∀ place, bitAt mode place = true → place = 11 ∨ place = 10) : dropped = mode := by
    refine ext_bitAt fun place inside => ?_
    by_cases setId : place = 11 ∨ place = 10
    · rcases setId with rfl | rfl
      · exact user.symm
      · exact group.symm
    · exact Bool.eq_iff_iff.mpr (iff_of_false (fun set => setId (places place inside set))
        fun set => setId (others place set))
  cases user : bitAt dropped 11 <;> cases group : bitAt dropped 10
  · simp [user, group] at loses
  · simp [only setGroup (by simp [user]) (by simp [group]) (by simp)]
  · simp [only setUser (by simp [user]) (by simp [group]) (by simp)]
  · simp [only (setUser ||| setGroup) (by simp [user]) (by simp [group]) (by simp)]

theorem lost_and_not {dropped : UInt32} (set : before &&& dropped = dropped) :
    lost before (before &&& ~~~dropped) = dropped := by
  refine ext_bitAt fun place inside => ?_
  have held : (bitAt before place && bitAt dropped place) = bitAt dropped place := by
    rw [← bitAt_and, set]
  simp only [lost, bitAt_and, bitAt_not _ inside]
  grind

/-- A mode changes in the set-id bits alone, by losing them, exactly when it loses one and changes
in nothing else. -/
theorem dropsOnlySetId_iff (before after : UInt32) :
    DropsOnlySetId before after ↔ LosesSetId before after ∧ ¬ ChangesOtherwise before after := by
  constructor
  · rintro ⟨dropped, member, set, rfl⟩
    rw [losesSetId_iff, ChangesOtherwise, lost_and_not set, not_or, not_not, not_not]
    simp only [List.mem_cons, List.not_mem_nil, or_false] at member
    refine ⟨?_, ?_, ?_⟩
    · rcases member with rfl | rfl | rfl <;> simp
    · rw [gained, eq_zero_iff]
      intro place inside
      simp only [bitAt_and, bitAt_not _ inside]
      grind
    · rcases member with rfl | rfl | rfl <;> decide
  · rintro ⟨loses, same⟩
    obtain ⟨noGain, noOther⟩ := not_or.mp same
    have rest := eq_and_not_lost (not_not.mp noGain)
    refine ⟨lost before after, lost_mem_of_losesSetId loses (not_not.mp noOther), ?_, rest⟩
    rw [lost, ← UInt32.and_assoc, UInt32.and_self]

end Dropped

end FileMode

namespace Classifier

theorem KeepsOwner.eq_setIdBitsRemoved_iff {classifier : Classifier}
    {modeBefore modeAfter : UInt32} {release : String} {before after : PackageRecord}
    {verdict : Verdict}
    (kept : classifier.KeepsOwner modeBefore modeAfter release before after verdict) :
    verdict = .allowed .setIdBitsRemoved ↔ FileMode.LosesSetId modeBefore modeAfter := by
  cases kept with
  | setIdBitsRemoved loses => exact iff_of_true rfl loses
  | releaseLacksDistTag kept _ => exact iff_of_false nofun kept
  | untrustedVendor kept _ _ => exact iff_of_false nofun kept
  | reinstalled kept _ _ _ => exact iff_of_false nofun kept
  | modifiedOutsidePackageManager tampers => exact iff_of_false nofun tampers.keepsSetId

theorem judgeNewOwner_ne_setIdBitsRemoved (classifier : Classifier) (before after : PackageRecord) :
    classifier.judgeNewOwner before after ≠ .allowed .setIdBitsRemoved := by
  unfold judgeNewOwner
  split
  · nofun
  · split <;> nofun

/-- The exemption asks for the same owner and a lost set-id bit, and for nothing else. -/
theorem Grounds.verdict_eq_setIdBitsRemoved_iff {classifier : Classifier} {chain : Chain}
    {position : Nat} {finding : Finding} {file : FileRecord} {mode : UInt32}
    {before after : PackageRecord}
    (grounds : classifier.Grounds chain position finding file mode before after) :
    finding.verdict = .allowed .setIdBitsRemoved ↔
      finding.package = finding.previous ∧ FileMode.LosesSetId mode file.mode := by
  rw [grounds.verdict, judge]
  split
  · rename_i same
    rw [(judgeSameOwner_keepsOwner ..).eq_setIdBitsRemoved_iff, and_iff_right same]
  · rename_i differs
    exact iff_of_false (judgeNewOwner_ne_setIdBitsRemoved classifier before after)
      fun both => differs both.1

/-- A modification is let through for dropped set-id bits exactly when the file stays with its
package and loses one of these bits. Its mode is then the mode that it had before with set-id bits
cleared, unless a bit was gained or another one lost, which the exemption does not look at. -/
theorem setIdBitsRemoved_iff (policy : ExclusionPolicy) (links : List ChainLink)
    (ordered : Chain.InOrder links) (classifier : Classifier) :
    ∀ finding ∈ (classifier.classify (Chain.build policy links)).findings, ∃ file mode,
      (Chain.build policy links).Modifies finding.layerIndex finding.path file finding.previous
        finding.package ∧
      (Chain.build policy links).ModeBelow finding.layerIndex finding.path mode ∧
      (finding.verdict = .allowed .setIdBitsRemoved ↔
        finding.package = finding.previous ∧ FileMode.LosesSetId mode file.mode) ∧
      (finding.verdict = .allowed .setIdBitsRemoved →
        (FileMode.DropsOnlySetId mode file.mode ↔ ¬ FileMode.ChangesOtherwise mode file.mode)) := by
  intro finding member
  obtain ⟨position, file, mode, before, after, grounds⟩ := (mem_findings_iff ..).mp member
  obtain rfl := grounds.layerIndex_eq ordered
  have exempted := grounds.verdict_eq_setIdBitsRemoved_iff
  refine ⟨file, mode, grounds.modifies, grounds.modeBelow, exempted, fun given => ?_⟩
  rw [FileMode.dropsOnlySetId_iff, and_iff_right (exempted.mp given).2]

section Sample

/-- A layer that writes the program of `Chain.sampleTool` with a mode. -/
def sampleWrite (index : Nat) (packages : Option (List InstalledPackage)) (mode : UInt32) :
    ChainLink :=
  { Chain.sampleLink index packages "usr/bin/tool" with
    contents := ⟨(∅ : PathMap FileRecord).insert "usr/bin/tool" ⟨"usr/bin/tool", mode⟩, none,
      packages, .empty⟩ }

/-- The program is installed with the set-user bit, and its mode is changed without a database. -/
def sampleModes (mode : UInt32) : List ChainLink :=
  [sampleWrite 0 (some [Chain.sampleTool]) 0o4755, sampleWrite 1 none mode]

/-- The tag and the vendor of the package of the program. -/
def sampleClassifier : Classifier := ⟨.known "el9", standardVendor⟩

private theorem modeBelow_sampleModes (mode : UInt32) :
    (Chain.build .empty (sampleModes mode)).ModeBelow 1 "usr/bin/tool" 0o4755 := by
  have written : (Chain.build .empty (sampleModes mode)).fileAt? 0 "usr/bin/tool" =
      some ⟨"usr/bin/tool", 0o4755⟩ := by
    rw [Chain.fileAt?_build]
    rfl
  exact .written (by decide) written fun between after before => by omega

private theorem exists_grounds_sampleModes (mode : UInt32)
    (modified : (Chain.build .empty (sampleModes mode)).Modifies 1 "usr/bin/tool"
      ⟨"usr/bin/tool", mode⟩ Chain.sampleTool.record.key Chain.sampleTool.record.key)
    (loses : FileMode.LosesSetId 0o4755 mode) :
    ∃ finding ∈ (sampleClassifier.classify (Chain.build .empty (sampleModes mode))).findings,
      finding.layerIndex = 1 ∧ finding.path = "usr/bin/tool" ∧
        finding.verdict = .allowed .setIdBitsRemoved := by
  obtain ⟨finding, below, before, after, grounds, path, previous, package⟩ :=
    exists_grounds_of_modifies sampleClassifier modified
  have ordered : Chain.InOrder (sampleModes mode) := rfl
  have place := grounds.layerIndex_eq ordered
  obtain rfl := (path ▸ grounds.modeBelow).unique (modeBelow_sampleModes mode)
  refine ⟨finding, (mem_findings_iff ..).mpr ⟨1, _, _, before, after, grounds⟩, place, path, ?_⟩
  exact grounds.verdict_eq_setIdBitsRemoved_iff.mpr ⟨package.trans previous.symm, loses⟩

/-- The file that becomes an ordinary program and stays as it was otherwise is let through. -/
theorem setIdBitsRemoved_iff_sample :
    Chain.InOrder (sampleModes 0o755) ∧
      ∃ finding ∈ (sampleClassifier.classify (Chain.build .empty (sampleModes 0o755))).findings,
        finding.verdict = .allowed .setIdBitsRemoved ∧ ∃ file mode,
          (Chain.build .empty (sampleModes 0o755)).Modifies finding.layerIndex finding.path file
            finding.previous finding.package ∧
          (Chain.build .empty (sampleModes 0o755)).ModeBelow finding.layerIndex finding.path mode ∧
          (FileMode.DropsOnlySetId mode file.mode ↔ ¬ FileMode.ChangesOtherwise mode file.mode) := by
  have ordered : Chain.InOrder (sampleModes 0o755) := rfl
  obtain ⟨finding, member, _, _, exempt⟩ := exists_grounds_sampleModes 0o755
    ⟨by decide, by decide +kernel, by decide +kernel, by decide +kernel⟩
    ⟨FileMode.setUser, by decide, by decide⟩
  obtain ⟨file, mode, modified, below, _, dropped⟩ :=
    setIdBitsRemoved_iff .empty (sampleModes 0o755) ordered sampleClassifier finding member
  exact ⟨ordered, finding, member, exempt, file, mode, modified, below, dropped exempt⟩

/-- A file that loses the set-user bit is let through though it gains the set-group bit and can be
written by all. -/
theorem not_forall_setIdBitsRemoved_dropsOnlySetId :
    ¬ ∀ (policy : ExclusionPolicy) (links : List ChainLink) (classifier : Classifier),
      Chain.InOrder links →
      ∀ finding ∈ (classifier.classify (Chain.build policy links)).findings,
        finding.verdict = .allowed .setIdBitsRemoved → ∀ file mode,
        (Chain.build policy links).fileAt? finding.layerIndex finding.path = some file →
        (Chain.build policy links).ModeBelow finding.layerIndex finding.path mode →
        FileMode.DropsOnlySetId mode file.mode := by
  intro always
  obtain ⟨finding, member, place, path, exempt⟩ := exists_grounds_sampleModes 0o2777
    ⟨by decide, by decide +kernel, by decide +kernel, by decide +kernel⟩
    ⟨FileMode.setUser, by decide, by decide⟩
  have written : (Chain.build .empty (sampleModes 0o2777)).fileAt? finding.layerIndex finding.path =
      some ⟨"usr/bin/tool", 0o2777⟩ := by
    rw [place, path]
    decide +kernel
  have below : (Chain.build .empty (sampleModes 0o2777)).ModeBelow finding.layerIndex finding.path
      0o4755 := by
    rw [place, path]
    exact modeBelow_sampleModes 0o2777
  have dropped := always .empty (sampleModes 0o2777) sampleClassifier rfl finding member exempt _ _
    written below
  exact absurd dropped (by unfold FileMode.DropsOnlySetId; decide)

end Sample

end Classifier

end ImageAudit
