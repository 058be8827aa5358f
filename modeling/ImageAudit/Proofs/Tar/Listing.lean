import ImageAudit.ByteStream
import ImageAudit.Proofs.Tar.Progress

/-! # The members of an archive

An archive is a list of members, each an entry with the data behind it. Which member is read next
depends only on where the next header lies, not on how much of the data before it was read: what
was left of it is skipped. So the list is that of a reader that leaves all data alone, and whoever
reads no more than the data of each entry meets the same members.
-/

namespace ImageAudit.Tar

open Stateful

/-- The reader has the rest of the stream from its position on. -/
structure Reader.Reads (stream : ByteStream) (reader : Reader) : Prop where
  rest : reader.rest = stream.content.drop reader.position
  within : reader.position ≤ stream.content.length
  isWhole : reader.isWhole = stream.isWhole

theorem Reader.reads_new (stream : ByteStream) : (new stream).Reads stream :=
  ⟨rfl, Nat.zero_le _, rfl⟩

namespace Reading

variable {stream : ByteStream} {reader final : Reader}

/-- The reader after a read of so many bytes. -/
def after (reader : Reader) (count : Nat) : Reader where
  rest := reader.rest.drop count
  position := reader.position + (reader.rest.take count).length
  lastRead := some (if (reader.rest.take count).length < count
    then reader.position + (reader.rest.take count).length else reader.position)
  isWhole := reader.isWhole
  nextHeader := reader.nextHeader

theorem take_apply {count : Nat} (something : count ≠ 0) (reader : Reader) :
    take count reader =
      if (reader.rest.take count).length < count && !reader.isWhole then
        (.error .streamFailed, after reader count)
      else (.ok (reader.rest.take count), after reader count) := by
  unfold take
  rw [bind_apply, get_apply]
  dsimp only
  rw [if_neg something, bind_apply, set_apply]
  dsimp only
  split <;> rfl

/-- Bytes that are there are read. -/
theorem take_of_le {count : Nat} (inside : count ≤ reader.rest.length) :
    ∃ final, take count reader = (.ok (reader.rest.take count), final) ∧
      final.rest = reader.rest.drop count ∧ final.position = reader.position + count ∧
      final.isWhole = reader.isWhole ∧ final.nextHeader = reader.nextHeader := by
  by_cases nothing : count = 0
  · subst nothing
    exact ⟨reader, rfl, rfl, rfl, rfl, rfl⟩
  · have full : (reader.rest.take count).length = count := List.length_take_of_le inside
    refine ⟨after reader count, ?_, rfl, congrArg _ full, rfl, rfl⟩
    rw [take_apply nothing, full, if_neg (by simp)]

/-- A read leaves the next header where it is. -/
theorem position_of_take {count : Nat} {read : Bytes}
    (ran : take count reader = (.ok read, final)) :
    final.position ≤ reader.position + count ∧ final.nextHeader = reader.nextHeader := by
  by_cases nothing : count = 0
  · subst nothing
    cases ran
    exact ⟨Nat.le_refl _, rfl⟩
  · rw [take_apply nothing] at ran
    split at ran
    · cases ran
    · cases ran
      exact ⟨Nat.add_le_add_left (List.length_take_le ..) _, rfl⟩

theorem keeps_take (count : Nat) : Keeps (Reader.Reads stream) (take count) := by
  intro reader read final reads ran
  by_cases nothing : count = 0
  · subst nothing
    cases ran
    exact reads
  · rw [take_apply nothing] at ran
    split at ran
    · cases ran
    · cases ran
      refine ⟨?_, ?_, reads.isWhole⟩
      · simp only [after, reads.rest, List.length_take, List.length_drop, List.drop_drop]
        have within := reads.within
        rcases Nat.le_total count (stream.content.length - reader.position) with few | many
        · rw [Nat.min_eq_left few]
        · rw [Nat.min_eq_right many, List.drop_of_length_le (by omega),
            List.drop_of_length_le (by omega)]
      · have within := reads.within
        simp only [after, reads.rest, List.length_take, List.length_drop]
        omega

end Reading

/-- How far a stream is read does not change what is read. -/
theorem keptByReading_reads (stream : ByteStream) : KeptByReading (Reader.Reads stream) where
  take := Reading.keeps_take
  next _ _ reads := ⟨reads.rest, reads.within, reads.isWhole⟩

/-- Both readers have the same stream, which they have not read beyond the next header. -/
structure Reader.Agree (stream : ByteStream) (reader other : Reader) : Prop where
  reads : reader.Reads stream
  reads' : other.Reads stream
  next : other.nextHeader = reader.nextHeader
  reached : reader.position ≤ reader.nextHeader
  reached' : other.position ≤ other.nextHeader

theorem Reader.Agree.symm {stream : ByteStream} {reader other : Reader}
    (agree : Reader.Agree stream reader other) : Reader.Agree stream other reader :=
  ⟨agree.reads', agree.reads, agree.next.symm, agree.reached', agree.reached⟩

section Skipping

variable {stream : ByteStream} {reader other final : Reader}

theorem skipTo_of_le (reads : reader.Reads stream) (reached : reader.position ≤ reader.nextHeader)
    (inside : reader.nextHeader ≤ stream.content.length) :
    ∃ final, Reading.skipTo reader.nextHeader reader = (.ok (), final) ∧
      final.rest = stream.content.drop reader.nextHeader ∧ final.position = reader.nextHeader ∧
      final.isWhole = stream.isWhole ∧ final.nextHeader = reader.nextHeader := by
  have distance : reader.nextHeader - reader.position ≤ reader.rest.length := by
    rw [reads.rest, List.length_drop]
    omega
  obtain ⟨final, taken, rest, position, isWhole, next⟩ := Reading.take_of_le distance
  refine ⟨final, ?_, ?_, ?_, ?_, next⟩
  · unfold Reading.skipTo
    rw [bind_apply, get_apply]
    dsimp only
    rw [bind_apply, taken]
    dsimp only
    rw [if_neg]
    · rfl
    · rw [List.length_take_of_le distance]
      exact Nat.lt_irrefl _
  · rw [rest, reads.rest, List.drop_drop]
    congr 1
    omega
  · omega
  · rw [isWhole, reads.isWhole]

/-- The next header lies within the stream where it was reached. -/
theorem le_of_skipTo (reads : reader.Reads stream)
    (ran : Reading.skipTo reader.nextHeader reader = (.ok (), final)) :
    reader.nextHeader ≤ stream.content.length := by
  obtain ⟨_, _, got, ran⟩ := bind_eq_ok_iff.mp ran
  cases got
  obtain ⟨skipped, _, taken, ran⟩ := bind_eq_ok_iff.mp ran
  split at ran <;> rename_i short
  · cases ran
  · have within := reads.within
    rw [(Reading.take_eq_ok taken).1, reads.rest, List.length_take, List.length_drop] at short
    omega

/-- Whoever looks for the next member and finds nothing wrong has all data before it. -/
theorem le_of_next? (reads : reader.Reads stream) {read? : Option Entry}
    (ran : next? reader = (.ok read?, final)) : reader.nextHeader ≤ stream.content.length := by
  obtain ⟨_, _, read, -⟩ := bind_eq_ok_iff.mp ran
  obtain ⟨_, _, got, read⟩ := bind_eq_ok_iff.mp read
  cases got
  obtain ⟨⟨⟩, _, skips, -⟩ := bind_eq_ok_iff.mp read
  exact le_of_skipTo reads skips

/-- A block is read alike whenever the latest read began. -/
theorem block?_congr (rest : other.rest = reader.rest) (position : other.position = reader.position)
    (isWhole : other.isWhole = reader.isWhole) (next : other.nextHeader = reader.nextHeader) :
    Reading.block? other = Reading.block? reader := by
  cases reader
  cases other
  cases rest
  cases position
  cases isWhole
  cases next
  rfl

theorem nextRaw?_congr (agree : Reader.Agree stream reader other) {records : Option Bytes}
    {raw? : Option RawEntry} (ran : nextRaw? records reader = (.ok raw?, final)) :
    nextRaw? records other = (.ok raw?, final) := by
  obtain ⟨_, _, got, ran⟩ := bind_eq_ok_iff.mp ran
  cases got
  obtain ⟨⟨⟩, middle, skips, ran⟩ := bind_eq_ok_iff.mp ran
  have inside := le_of_skipTo agree.reads skips
  obtain ⟨_, skips', rest, position, isWhole, next⟩ :=
    skipTo_of_le agree.reads agree.reached inside
  rw [skips] at skips'
  cases skips'
  obtain ⟨middle', skips', rest', position', isWhole', next'⟩ :=
    skipTo_of_le agree.reads' agree.reached' (agree.next ▸ inside)
  have blocks : Reading.block? middle' = Reading.block? middle :=
    block?_congr (by rw [rest', rest, agree.next]) (by rw [position', position, agree.next])
      (isWhole'.trans isWhole.symm) (by rw [next', next, agree.next])
  unfold nextRaw?
  rw [bind_apply, get_apply]
  dsimp only
  rw [bind_apply, skips']
  dsimp only
  rw [bind_apply] at ran ⊢
  rw [blocks]
  exact ran

/-- The next member does not depend on how much of the data before it was read. -/
theorem next?_congr (agree : Reader.Agree stream reader other) {read? : Option Entry}
    (ran : next? reader = (.ok read?, final)) : next? other = (.ok read?, final) := by
  obtain ⟨raw?, between, read, ran⟩ := bind_eq_ok_iff.mp ran
  unfold next? nextAfter?
  rw [bind_apply, nextRaw?_congr agree read]
  exact ran

end Skipping

/-- So many bytes can be read before the next header is reached. -/
def Reader.HasRoom (size : Nat) (reader : Reader) : Prop :=
  reader.position + size ≤ reader.nextHeader

section Room

variable {stream : ByteStream} {reader final : Reader}

theorem next_of_block? {block : Bytes} (ran : Reading.block? reader = (.ok (some block), final)) :
    final.position = reader.position + blockSize ∧ final.nextHeader = reader.nextHeader := by
  obtain ⟨read, between, taken, ran⟩ := bind_eq_ok_iff.mp ran
  by_cases ended : read = []
  · rw [if_pos ended] at ran
    cases ran
  · rw [if_neg ended] at ran
    obtain ⟨full, ran⟩ := check_eq_ok_iff.mp ran
    obtain ⟨-, rfl⟩ := pure_eq_ok_iff.mp ran
    rw [(Reading.take_eq_ok taken).1] at full
    rw [Reading.take_apply (by decide)] at taken
    split at taken
    · cases taken
    · cases taken
      refine ⟨congrArg (reader.position + ·) ?_, rfl⟩
      rw [List.length_take] at full ⊢
      omega

theorem hasRoom_readSparseBlocks {room size fuel : Nat} {map last : SparseMap}
    (before : reader.HasRoom room)
    (ran : readSparseBlocks size fuel map reader = (.ok last, final)) : final.HasRoom room := by
  induction fuel generalizing reader map with
  | zero => cases ran
  | succ fuel ih =>
    obtain ⟨block?, read, reads, ran⟩ := bind_eq_ok_iff.mp ran
    cases block? with
    | none => cases ran
    | some block =>
      obtain ⟨position, next⟩ := next_of_block? reads
      obtain ⟨_, _, needed, ran⟩ := bind_eq_ok_iff.mp ran
      cases needed
      obtain ⟨_, _, moved, ran⟩ := bind_eq_ok_iff.mp ran
      cases moved
      obtain ⟨map, added, adds, ran⟩ := bind_eq_ok_iff.mp ran
      have middle :
          Reader.HasRoom room { read with nextHeader := read.nextHeader + blockSize } := by
        simp only [Reader.HasRoom] at before ⊢
        omega
      have kept : added.HasRoom room :=
        Keeps.foldlM (SparseMap.keeps_add size) _ _ middle adds
      split at ran
      · exact ih kept ran
      · obtain ⟨-, rfl⟩ := pure_eq_ok_iff.mp ran
        exact kept

theorem hasRoom_checkSparse {room : Nat} {entry : RawEntry} (before : reader.HasRoom room)
    (ran : checkSparse entry reader = (.ok (), final)) : final.HasRoom room := by
  have checked (map : SparseMap) : Keeps (Reader.HasRoom room) (do
      let realSize ← Reading.need .number (number? (entry.header.field 483 12))
      if map.reached ≠ realSize ∨ map.used < entry.size then throw .sparseMap) := by
    refine (keeps_need ..).bind fun realSize => ?_
    split
    · exact keeps_throw _
    · exact keeps_pure _
  have keeps : Keeps (Reader.HasRoom room) (checkSparse entry) := by
    unfold checkSparse
    split
    · exact keeps_pure _
    · refine .check ((Keeps.foldlM (SparseMap.keeps_add entry.size) _ _).bind fun map => ?_)
      dsimp only
      split
      · refine keeps_get.bind fun reader => Keeps.bind ?_ checked
        exact fun _ _ _ before ran => hasRoom_readSparseBlocks before ran
      · exact (keeps_pure map).bind checked
  exact keeps before ran

theorem hasRoom_of_nextRaw? {records : Option Bytes} {raw : RawEntry} (reads : reader.Reads stream)
    (reached : reader.position ≤ reader.nextHeader)
    (ran : nextRaw? records reader = (.ok (some raw), final)) : final.HasRoom raw.size := by
  obtain ⟨_, _, got, ran⟩ := bind_eq_ok_iff.mp ran
  cases got
  obtain ⟨⟨⟩, skipped, skips, ran⟩ := bind_eq_ok_iff.mp ran
  obtain ⟨_, skips', -, position, -, next⟩ :=
    skipTo_of_le reads reached (le_of_skipTo reads skips)
  rw [skips] at skips'
  cases skips'
  obtain ⟨block?, behind, blocks, ran⟩ := bind_eq_ok_iff.mp ran
  cases block? with
  | none => cases ran
  | some block =>
    obtain ⟨position', next'⟩ := next_of_block? blocks
    dsimp only at ran
    split at ran
    · cases ran
    obtain ⟨-, ran⟩ := check_eq_ok_iff.mp ran
    obtain ⟨size, sized, need, ran⟩ := bind_eq_ok_iff.mp ran
    obtain ⟨_, _, got, ran⟩ := bind_eq_ok_iff.mp ran
    cases got
    obtain ⟨-, ran⟩ := check_eq_ok_iff.mp ran
    obtain ⟨_, moved, moves, ran⟩ := bind_eq_ok_iff.mp ran
    obtain ⟨same, rfl⟩ := pure_eq_ok_iff.mp ran
    cases moves
    cases same
    have keeps : Keeps (fun reader => reader.position = behind.position ∧
        reader.nextHeader = behind.nextHeader) (Reading.need .number (Header.mk block).size?) :=
      keeps_need ..
    have kept := keeps ⟨rfl, rfl⟩ need
    simp only [Reader.HasRoom, storedSize, blockSize] at position' ⊢
    omega

private theorem hasRoom_of_nextAfter? {fuel : Nat} {extensions : Extensions} {entry : Entry}
    (reads : reader.Reads stream) (reached : reader.position ≤ reader.nextHeader)
    (ran : nextAfter? fuel extensions reader = (.ok (some entry), final)) :
    final.HasRoom entry.size := by
  induction fuel generalizing extensions reader with
  | zero => cases ran
  | succ fuel ih =>
    obtain ⟨raw?, between, read, ran⟩ := bind_eq_ok_iff.mp ran
    cases raw? with
    | none => cases (check_eq_ok_iff.mp ran).2
    | some raw =>
      have room := hasRoom_of_nextRaw? reads reached read
      have reads' := (keptByReading_reads stream).nextRaw? _ reads read
      dsimp only at ran
      split at ran
      · obtain ⟨data, behind, takes, ran⟩ := bind_eq_ok_iff.mp (check_eq_ok_iff.mp ran).2
        obtain ⟨position, next⟩ := Reading.position_of_take takes
        exact ih (Reading.keeps_take _ reads' takes) (next ▸ Nat.le_trans position room) ran
      · obtain ⟨_, behind, checks, ran⟩ := bind_eq_ok_iff.mp ran
        obtain ⟨same, rfl⟩ := pure_eq_ok_iff.mp ran
        cases same
        exact hasRoom_checkSparse room checks

/-- The data of an entry lies before the next header. -/
theorem hasRoom_of_next? {entry : Entry} (reads : reader.Reads stream)
    (reached : reader.position ≤ reader.nextHeader)
    (ran : next? reader = (.ok (some entry), final)) : final.HasRoom entry.size :=
  hasRoom_of_nextAfter? reads reached ran

/-- The reader that read an entry agrees with one that has read of its data. -/
theorem Reader.HasRoom.agree {size count : Nat} {read : Bytes} (room : reader.HasRoom size)
    (reads : reader.Reads stream) (few : count ≤ size)
    (ran : Reading.take count reader = (.ok read, final)) : Reader.Agree stream final reader where
  reads := Reading.keeps_take count reads ran
  reads' := reads
  next := (Reading.position_of_take ran).2.symm
  reached := by
    obtain ⟨position, next⟩ := Reading.position_of_take ran
    unfold HasRoom at room
    omega
  reached' := Nat.le_trans (Nat.le_add_right ..) room

end Room

structure Listed where
  entry : Entry
  data : Bytes
  deriving DecidableEq, Repr

/-- What the archive has from where the reader is, as the reader meets it that skips all data. -/
inductive Reader.Lists : Reader → List Listed → Prop where
  /-- The archive ends. -/
  | ended {reader final : Reader} (read : next? reader = (.ok none, final)) : reader.Lists []
  /-- One more entry. -/
  | entry {reader opened : Reader} {entry : Entry} {members : List Listed}
      (read : next? reader = (.ok (some entry), opened)) (rest : opened.Lists members) :
      reader.Lists (⟨entry, opened.rest.take entry.size⟩ :: members)

/-- The data of an entry is there where the archive goes on behind it. -/
theorem Reader.Lists.le_length {stream : ByteStream} {reader : Reader} {members : List Listed}
    (lists : reader.Lists members) (reads : reader.Reads stream) {size : Nat}
    (room : reader.HasRoom size) : size ≤ reader.rest.length := by
  have inside : reader.nextHeader ≤ stream.content.length := by
    cases lists with
    | ended read => exact le_of_next? reads read
    | entry read => exact le_of_next? reads read
  unfold HasRoom at room
  rw [reads.rest, List.length_drop]
  omega

/-- An archive has one list of members. -/
theorem Reader.Lists.unique {reader : Reader} {members others : List Listed}
    (lists : reader.Lists members) (lists' : reader.Lists others) : members = others := by
  induction lists generalizing others with
  | ended read =>
    cases lists' with
    | ended => rfl
    | entry read' =>
      rw [read] at read'
      cases read'
  | entry read _ ih =>
    cases lists' with
    | ended read' =>
      rw [read] at read'
      cases read'
    | entry read' rest' =>
      rw [read] at read'
      cases read'
      rw [ih rest']

end ImageAudit.Tar
