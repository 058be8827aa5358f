import ImageAudit.Proofs.Stateful
import ImageAudit.Tar.Reader

/-! # How far an archive is read

No step of reading gives bytes back, and whoever gets an entry has read its header, which takes a
block. So an archive has no more entries than blocks.
-/

namespace ImageAudit.Tar

open Stateful

def Reader.left (reader : Reader) : Nat := reader.rest.length

namespace Reading

variable {reader final : Reader}

theorem take_eq_ok {count : Nat} {read : Bytes} (ran : take count reader = (.ok read, final)) :
    read = reader.rest.take count ∧ final.rest = reader.rest.drop count := by
  obtain ⟨_, _, got, ran⟩ := bind_eq_ok_iff.mp ran
  cases got
  dsimp only at ran
  by_cases nothing : count = 0
  · rw [if_pos nothing] at ran
    obtain ⟨rfl, rfl⟩ := pure_eq_ok_iff.mp ran
    rw [nothing]
    exact ⟨rfl, rfl⟩
  · rw [if_neg nothing] at ran
    obtain ⟨_, _, set, ran⟩ := bind_eq_ok_iff.mp ran
    cases set
    obtain ⟨rfl, rfl⟩ := pure_eq_ok_iff.mp (check_eq_ok_iff.mp ran).2
    exact ⟨rfl, rfl⟩

theorem lowers_take (count : Nat) : Lowers Reader.left (take count) := by
  refine lowers_of_le fun reader read final ran => ?_
  rw [Reader.left, (take_eq_ok ran).2, List.length_drop]
  exact Nat.sub_le ..

/-- A block that is read is no longer left. -/
theorem left_of_block? {block : Bytes} (ran : block? reader = (.ok (some block), final)) :
    final.left + blockSize ≤ reader.left := by
  obtain ⟨read, between, taken, ran⟩ := bind_eq_ok_iff.mp ran
  by_cases ended : read = []
  · rw [if_pos ended] at ran
    cases ran
  · rw [if_neg ended] at ran
    obtain ⟨full, ran⟩ := check_eq_ok_iff.mp ran
    obtain ⟨-, rfl⟩ := pure_eq_ok_iff.mp ran
    obtain ⟨rfl, rest⟩ := take_eq_ok taken
    rw [List.length_take] at full
    rw [Reader.left, Reader.left, rest, List.length_drop]
    omega

end Reading

/-- What holds of a reader however far it reads. -/
structure KeptByReading (holds : Reader → Prop) : Prop where
  take : ∀ count, Keeps holds (Reading.take count)
  next : ∀ reader next, holds reader → holds { reader with nextHeader := next }

theorem keptByReading_left (bound : Nat) : KeptByReading (Reader.left · ≤ bound) where
  take count := (Reading.lowers_take count).keeps bound
  next _ _ := id

section Kept

variable {holds : Reader → Prop}

theorem keeps_need {α : Type} (fault : Fault) (value? : Option α) :
    Keeps holds (Reading.need fault value?) := by
  cases value? with
  | some value => exact keeps_pure value
  | none => exact keeps_throw fault

theorem lowers_need {α : Type} (fault : Fault) (value? : Option α) :
    Lowers Reader.left (Reading.need fault value?) :=
  ⟨fun _ => keeps_need fault value?⟩

theorem SparseMap.keeps_add (size : Nat) (map : SparseMap) (piece : Bytes) :
    Keeps holds (add size map piece) := by
  unfold add
  split
  · exact keeps_pure _
  · exact (keeps_need ..).bind fun offset => (keeps_need ..).bind fun length =>
      .check (.check (keeps_pure _))

variable (kept : KeptByReading holds)
include kept

namespace KeptByReading

theorem skipTo (target : Nat) : Keeps holds (Reading.skipTo target) := by
  refine keeps_get.bind fun reader => (kept.take _).bind fun skipped => ?_
  split
  · exact keeps_throw _
  · exact keeps_pure _

theorem block? : Keeps holds Reading.block? := by
  refine (kept.take _).bind fun read => ?_
  split
  · exact keeps_pure _
  · exact .check (keeps_pure _)

theorem modifyNext (next : Reader → Nat) :
    Keeps holds (modify fun reader => { reader with nextHeader := next reader } : Reading _) :=
  keeps_modify fun reader => kept.next reader (next reader)

theorem readSparseBlocks (size fuel : Nat) (map : SparseMap) :
    Keeps holds (Tar.readSparseBlocks size fuel map) := by
  induction fuel generalizing map with
  | zero => exact keeps_throw _
  | succ fuel ih =>
    refine kept.block?.bind fun block? => (keeps_need ..).bind fun block => ?_
    refine (kept.modifyNext fun reader => reader.nextHeader + blockSize).bind fun _ =>
      (Keeps.foldlM (SparseMap.keeps_add size) _ map).bind fun map => ?_
    split
    · exact ih map
    · exact keeps_pure map

theorem checkSparse (entry : RawEntry) : Keeps holds (Tar.checkSparse entry) := by
  have checked (map : SparseMap) : Keeps holds (do
      let realSize ← Reading.need .number (number? (entry.header.field 483 12))
      if map.reached ≠ realSize ∨ map.used < entry.size then throw .sparseMap) := by
    refine (keeps_need ..).bind fun realSize => ?_
    split
    · exact keeps_throw _
    · exact keeps_pure _
  unfold Tar.checkSparse
  split
  · exact keeps_pure _
  · refine .check ((Keeps.foldlM (SparseMap.keeps_add entry.size) _ _).bind fun map => ?_)
    dsimp only
    split
    · exact keeps_get.bind fun reader => (kept.readSparseBlocks ..).bind checked
    · exact (keeps_pure map).bind checked

theorem nextRaw? (records : Option Bytes) : Keeps holds (Tar.nextRaw? records) := by
  refine keeps_get.bind fun reader => (kept.skipTo _).bind fun _ =>
    kept.block?.bind fun block? => ?_
  split
  · exact keeps_pure _
  · split
    · exact keeps_pure _
    · refine .check ((keeps_need ..).bind fun headerSize => keeps_get.bind fun reader => ?_)
      exact .check ((kept.modifyNext fun _ => _).bind fun _ => keeps_pure _)

theorem nextAfter? (fuel : Nat) (extensions : Extensions) :
    Keeps holds (Tar.nextAfter? fuel extensions) := by
  induction fuel generalizing extensions with
  | zero => exact keeps_throw _
  | succ fuel ih =>
    refine (kept.nextRaw? _).bind fun raw? => ?_
    split
    · exact .check (keeps_pure _)
    · split
      · exact .check ((kept.take _).bind fun data => ih _)
      · exact (kept.checkSparse _).bind fun _ => keeps_pure _

theorem next? : Keeps holds Tar.next? := kept.nextAfter? 4 .empty

end KeptByReading

end Kept

section Entries

variable {reader final : Reader}

/-- A header that is read is no longer left. -/
theorem left_of_nextRaw? {records : Option Bytes} {entry : RawEntry}
    (ran : nextRaw? records reader = (.ok (some entry), final)) :
    final.left + blockSize ≤ reader.left := by
  obtain ⟨_, _, got, ran⟩ := bind_eq_ok_iff.mp ran
  cases got
  obtain ⟨_, skipped, skips, ran⟩ := bind_eq_ok_iff.mp ran
  obtain ⟨block?, behind, reads, ran⟩ := bind_eq_ok_iff.mp ran
  have before := (keptByReading_left _).skipTo _ (Nat.le_refl _) skips
  cases block? with
  | none => cases ran
  | some block =>
    dsimp only at ran
    split at ran
    · cases ran
    obtain ⟨-, ran⟩ := check_eq_ok_iff.mp ran
    obtain ⟨_, sized, need, ran⟩ := bind_eq_ok_iff.mp ran
    obtain ⟨_, _, got, ran⟩ := bind_eq_ok_iff.mp ran
    cases got
    obtain ⟨-, ran⟩ := check_eq_ok_iff.mp ran
    obtain ⟨_, moved, moves, ran⟩ := bind_eq_ok_iff.mp ran
    obtain ⟨-, rfl⟩ := pure_eq_ok_iff.mp ran
    cases moves
    have read := Reading.left_of_block? reads
    have same : sized.left ≤ behind.left := (lowers_need _ _).le need
    change sized.left + blockSize ≤ reader.left
    omega

private theorem left_of_nextAfter? {fuel : Nat} {extensions : Extensions} {entry : Entry}
    (ran : nextAfter? fuel extensions reader = (.ok (some entry), final)) :
    final.left + blockSize ≤ reader.left := by
  induction fuel generalizing extensions reader with
  | zero => cases ran
  | succ fuel ih =>
    obtain ⟨raw?, between, reads, ran⟩ := bind_eq_ok_iff.mp ran
    cases raw? with
    | none => cases (check_eq_ok_iff.mp ran).2
    | some raw =>
      have read := left_of_nextRaw? reads
      dsimp only at ran
      split at ran
      · obtain ⟨data, behind, takes, ran⟩ := bind_eq_ok_iff.mp (check_eq_ok_iff.mp ran).2
        have taken := (Reading.lowers_take _).le takes
        have later := ih ran
        omega
      · obtain ⟨_, behind, checks, ran⟩ := bind_eq_ok_iff.mp ran
        obtain ⟨-, rfl⟩ := pure_eq_ok_iff.mp ran
        have checked := (keptByReading_left _).checkSparse raw (Nat.le_refl _) checks
        omega

/-- An entry takes a block of the archive at least. -/
theorem left_of_next? {entry : Entry} (ran : next? reader = (.ok (some entry), final)) :
    final.left + blockSize ≤ reader.left :=
  left_of_nextAfter? ran

end Entries

end ImageAudit.Tar
