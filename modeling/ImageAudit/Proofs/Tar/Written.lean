import ImageAudit.Proofs.Tar.Header
import ImageAudit.Proofs.Tar.Listing
import ImageAudit.Proofs.Tar.PathField

/-! # What was written is read

A reader that stands before a member that was written, with a long path or link target in front or
without, meets that member: its header, its data, and a path of the same normal form. It then stands
before what was written next. At the blocks that end an archive nothing more is met.
-/

namespace ImageAudit.Tar

open Stateful Writer

/-- Nothing beyond the next header was read, and these bytes begin there. -/
structure Reader.Before (stream : ByteStream) (ahead : Bytes) (reader : Reader) : Prop where
  reads : reader.Reads stream
  reached : reader.position ≤ reader.nextHeader
  inside : reader.nextHeader ≤ stream.content.length
  ahead : stream.content.drop reader.nextHeader = ahead

/-- Data with its zeros takes the place that the reader gives it. -/
theorem length_padded (data : Bytes) : (padded data).length = storedSize data.length := by
  rw [padded, List.length_append, Bytes.zeros, List.length_replicate, Bytes.padding, storedSize,
    blockSize]
  omega

theorem le_storedSize (size : Nat) : size ≤ storedSize size := by
  rw [storedSize, blockSize]
  omega

section Steps

variable {stream : ByteStream} {reader : Reader} {ahead : Bytes}

theorem block?_append {block : Bytes} (full : block.length = blockSize)
    (begins : reader.rest = block ++ ahead) :
    ∃ final, Reading.block? reader = (.ok (some block), final) ∧ final.rest = ahead := by
  have enough : blockSize ≤ reader.rest.length := by
    rw [begins, List.length_append]
    omega
  have notEmpty : block ≠ [] := by
    rintro rfl
    cases full
  obtain ⟨final, taken, rest, -⟩ := Reading.take_of_le enough
  rw [begins, List.take_left' full] at taken
  refine ⟨final, ?_, ?_⟩
  · unfold Reading.block?
    rw [bind_apply, taken]
    dsimp only
    rw [if_neg notEmpty, if_neg (Nat.not_lt.mpr (Nat.le_of_eq full.symm))]
    rfl
  · rw [rest, begins, List.drop_left' full]

/-- The block that is read next is the one that the reader stands before. -/
theorem Reader.Before.block? {block : Bytes} (before : reader.Before stream (block ++ ahead))
    (full : block.length = blockSize) :
    ∃ skipped opened, Reading.skipTo reader.nextHeader reader = (.ok (), skipped) ∧
      Reading.block? skipped = (.ok (some block), opened) ∧ opened.Reads stream ∧
      opened.rest = ahead ∧ opened.position = reader.nextHeader + blockSize ∧
      opened.nextHeader = reader.nextHeader := by
  obtain ⟨skipped, skips, rest, position, -, next⟩ :=
    skipTo_of_le before.reads before.reached before.inside
  obtain ⟨opened, reads, rest⟩ := block?_append full (rest.trans before.ahead)
  obtain ⟨position', next'⟩ := next_of_block? reads
  have kept := keptByReading_reads stream
  exact ⟨skipped, opened, skips, reads, kept.block? (kept.skipTo _ before.reads skips) reads, rest,
    by rw [position', position], next'.trans next⟩

/-- Reading of the data leaves what comes next. -/
theorem Reader.Before.take {final : Reader} {size count : Nat} {read : Bytes}
    (before : reader.Before stream ahead) (room : reader.HasRoom size) (few : count ≤ size)
    (ran : Reading.take count reader = (.ok read, final)) : final.Before stream ahead := by
  have agree := room.agree before.reads few ran
  have next := agree.next
  exact ⟨agree.reads, agree.reached, next ▸ before.inside, next ▸ before.ahead⟩

variable {fields : HeaderFields} {data : Bytes}
variable (short : stream.content.length < 2 ^ 63)
variable (named : fields.name.length ≤ fieldSize) (linked : fields.link.length ≤ fieldSize)
variable (sized : fields.size = data.length)
variable (before : reader.Before stream (fields.block ++ (padded data ++ ahead)))
include short named linked sized before

theorem fits_of_before : fields.Fits := by
  refine ⟨named, linked, ?_⟩
  have long := congrArg List.length before.ahead
  have whole := le_storedSize data.length
  rw [List.length_drop, List.length_append, List.length_append, length_padded] at long
  omega

/-- A header that was written is read, and its data lies before what was written next. -/
theorem Reader.Before.nextRaw? :
    ∃ opened, Tar.nextRaw? none reader = (.ok (some ⟨⟨fields.block⟩, data.length⟩), opened) ∧
      opened.Before stream ahead ∧ opened.HasRoom data.length ∧
      opened.rest.take data.length = data := by
  have fits := fits_of_before short named linked sized before
  obtain ⟨skipped, read, skips, reads, kept, rest, position, next⟩ :=
    before.block? fits.length_block
  have whole := le_storedSize data.length
  have inside : reader.nextHeader + blockSize + storedSize data.length ≤
      stream.content.length := by
    have long := congrArg List.length kept.rest
    have within := kept.within
    rw [rest, List.length_append, length_padded, List.length_drop] at long
    omega
  let opened : Reader :=
    { read with nextHeader := reader.nextHeader + blockSize + storedSize data.length }
  have size : dataSize ⟨fields.block⟩ none fields.size = data.length := by
    unfold dataSize
    split <;> exact sized
  refine ⟨opened, ?_, ⟨⟨kept.rest, kept.within, kept.isWhole⟩, ?_, inside, ?_⟩, ?_, ?_⟩
  · unfold Tar.nextRaw?
    rw [bind_apply, get_apply]
    dsimp only
    rw [bind_apply, skips]
    dsimp only
    rw [bind_apply, reads]
    dsimp only
    rw [fits.block_not_zeros, fits.isIntact_block, fits.size?_block]
    simp only [Bool.false_eq_true, if_false, Bool.not_true]
    refine bind_eq_ok_iff.mpr ⟨_, _, rfl, bind_eq_ok_iff.mpr ⟨_, _, rfl, ?_⟩⟩
    rw [size, next, if_neg (by omega)]
    exact bind_eq_ok_iff.mpr ⟨_, _, rfl, rfl⟩
  · change read.position ≤ reader.nextHeader + blockSize + storedSize data.length
    omega
  · change stream.content.drop (reader.nextHeader + blockSize + storedSize data.length) = ahead
    rw [← List.drop_drop, ← position, ← kept.rest, rest, List.drop_left' (length_padded data)]
  · change read.position + data.length ≤ reader.nextHeader + blockSize + storedSize data.length
    omega
  · change read.rest.take data.length = data
    rw [rest, padded, List.append_assoc, List.take_left' rfl]

omit named linked sized before
variable (fuel : Nat) {extensions : Extensions} (noRecords : extensions.records = none)
include noRecords

/-- A long path or link target in front is taken in. -/
theorem Reader.Before.longText {kind : UInt8} {text : Bytes}
    (before : reader.Before stream (Writer.longText kind text ++ ahead))
    (isLong : EntryKind.ofByte kind = .longName ∨ EntryKind.ofByte kind = .longLink)
    (fresh : extensions.has (EntryKind.ofByte kind) = false) :
    ∃ opened, opened.Before stream ahead ∧ nextAfter? (fuel + 1) extensions reader =
      nextAfter? fuel (extensions.add (EntryKind.ofByte kind) (text ++ [0])) opened := by
  let fields : HeaderFields := ⟨Bytes.ofText "././@LongLink", 0o644, text.length + 1, kind, []⟩
  have named : (Bytes.ofText "././@LongLink").length ≤ fieldSize := by decide +kernel
  have sized : fields.size = (text ++ [0]).length := by
    rw [List.length_append]
    rfl
  have before : reader.Before stream (fields.block ++ (padded (text ++ [0]) ++ ahead)) := by
    rw [← List.append_assoc]
    exact before
  have fits := fits_of_before short named (Nat.zero_le _) sized before
  obtain ⟨read, reads, before, room, data⟩ := before.nextRaw? short named (Nat.zero_le _) sized
  have isKind : (Header.mk fields.block).kind = EntryKind.ofByte kind := fits.kind_block
  have describes : RawEntry.describesNext ⟨⟨fields.block⟩, (text ++ [0]).length⟩ = true := by
    rw [RawEntry.describesNext, Header.isRecognized, fits.isGnu_block, Bool.or_true, isKind]
    rcases isLong with long | long <;> rw [long] <;> rfl
  have inside : (text ++ [0]).length ≤ read.rest.length := by
    rw [← data, List.length_take]
    exact Nat.min_le_right ..
  obtain ⟨opened, taken, -⟩ := Reading.take_of_le inside
  refine ⟨opened, before.take room (Nat.le_refl _) taken, ?_⟩
  rw [nextAfter?, bind_apply, noRecords, reads]
  dsimp only
  rw [if_pos describes, isKind, fresh]
  simp only [Bool.false_eq_true, if_false]
  rw [bind_apply, taken, data]

include short named linked sized before

/-- An entry that describes no other is met with what was told about it. -/
theorem Reader.Before.entry (plain : (EntryKind.ofByte fields.kind).isExtension = false)
    (whole : EntryKind.ofByte fields.kind ≠ .sparse) :
    ∃ opened, opened.Before stream ahead ∧ opened.rest.take data.length = data ∧
      nextAfter? (fuel + 1) extensions reader =
        (.ok (some ⟨⟨fields.block⟩, extensions.path ⟨fields.block⟩,
          extensions.link? ⟨fields.block⟩, data.length⟩), opened) := by
  have fits := fits_of_before short named linked sized before
  obtain ⟨opened, reads, before, -, behind⟩ := before.nextRaw? short named linked sized
  have isKind : (Header.mk fields.block).kind = EntryKind.ofByte fields.kind := fits.kind_block
  have describes : RawEntry.describesNext ⟨⟨fields.block⟩, data.length⟩ = false := by
    rw [RawEntry.describesNext, isKind]
    revert plain
    cases EntryKind.ofByte fields.kind <;> simp [EntryKind.isExtension]
  refine ⟨opened, before, behind, ?_⟩
  rw [nextAfter?, bind_apply, noRecords, reads]
  dsimp only
  rw [describes]
  simp only [Bool.false_eq_true, if_false]
  rw [checkSparse, isKind, if_pos whole]
  rfl

end Steps

/-- A text as it stands in front of a member that it is too long for, if it is. -/
def InFront (kind : UInt8) (front : Bytes) : Prop :=
  front = [] ∨ ∃ text, front = longText kind text

section Members

variable {stream : ByteStream} {reader : Reader} {ahead data path front : Bytes}
variable {fields : HeaderFields} (short : stream.content.length < 2 ^ 63)
variable (named : fields.name = (placePath path).1) (linked : fields.link.length ≤ fieldSize)
variable (sized : fields.size = data.length)
variable (plain : (EntryKind.ofByte fields.kind).isExtension = false)
variable (whole : EntryKind.ofByte fields.kind ≠ .sparse)
include short named linked sized plain whole

/-- An entry is met behind the link target that is too long for it. -/
theorem Reader.Before.linkedEntry (fuel : Nat) {extensions : Extensions}
    (noLink : extensions.link = none) (noRecords : extensions.records = none)
    (inFront : InFront 0x4B front)
    (before : reader.Before stream (front ++ (fields.block ++ (padded data ++ ahead)))) :
    fields.Fits ∧ ∃ entry opened,
      nextAfter? (fuel + 2) extensions reader = (.ok (some entry), opened) ∧
        opened.Before stream ahead ∧ opened.rest.take entry.size = data ∧
        entry.header = ⟨fields.block⟩ ∧ entry.path = extensions.path ⟨fields.block⟩ := by
  have fitted : fields.name.length ≤ fieldSize :=
    Nat.le_of_eq (named ▸ (placePath_spec path).1)
  rcases inFront with rfl | ⟨target, rfl⟩
  · obtain ⟨opened, after, read, ran⟩ :=
      before.entry short fitted linked sized _ noRecords plain whole
    exact ⟨fits_of_before short fitted linked sized before, _, opened, ran, after, read, rfl, rfl⟩
  · have fresh : extensions.has (EntryKind.ofByte 0x4B) = false := by
      change extensions.link.isSome = false
      rw [noLink]
      rfl
    obtain ⟨told, before, tells⟩ := before.longText short (fuel + 1) noRecords (.inr rfl) fresh
    have noRecords : (extensions.add (EntryKind.ofByte 0x4B) (target ++ [0])).records = none :=
      noRecords
    obtain ⟨opened, after, read, ran⟩ :=
      before.entry short fitted linked sized _ noRecords plain whole
    have ran := tells.trans ran
    exact ⟨fits_of_before short fitted linked sized before, _, opened, ran, after, read, rfl, rfl⟩

/-- A member that was written is met with its header, its data and a path of the same normal
form. -/
theorem Reader.Before.next? (inFront : InFront 0x4B front)
    (before : reader.Before stream
      ((placePath path).2 ++ (front ++ (fields.block ++ (padded data ++ ahead))))) :
    fields.Fits ∧ ∃ entry opened, Tar.next? reader = (.ok (some entry), opened) ∧
      opened.Before stream ahead ∧ opened.rest.take entry.size = data ∧
      entry.header = ⟨fields.block⟩ ∧
      Path.normalize (Utf8.lossy entry.path) = Path.normalize (Utf8.lossy path) := by
  obtain ⟨-, ⟨noFront, same⟩ | front⟩ := placePath_spec path
  · rw [noFront, List.nil_append] at before
    have nothing : Extensions.empty.link = none := rfl
    obtain ⟨fits, entry, opened, ran, after, read, header, name⟩ :=
      before.linkedEntry short named linked sized plain whole 2 nothing rfl inFront
    refine ⟨fits, entry, opened, ran, after, read, header, ?_⟩
    rw [name, ← same, ← named, ← fits.path_block]
    rfl
  · rw [front] at before
    have nothing : Extensions.empty.records = none := rfl
    obtain ⟨told, before, tells⟩ := before.longText short 3 nothing (.inl rfl) rfl
    have noLink : (Extensions.empty.add (EntryKind.ofByte 0x4C) (path ++ [0])).link = none := rfl
    obtain ⟨fits, entry, opened, ran, after, read, header, name⟩ :=
      before.linkedEntry short named linked sized plain whole 1 noLink rfl inFront
    refine ⟨fits, entry, opened, tells.trans ran, after, read, header, ?_⟩
    have terminated : (path ++ [0]).getLast? = some 0 := List.getLast?_concat
    have name : entry.path = Extensions.unterminated (path ++ [0]) := name
    rw [name, Extensions.unterminated, if_pos terminated, List.dropLast_concat]

end Members

/-- At the end of an archive nothing more is met. -/
theorem Reader.Before.ended {stream : ByteStream} {reader : Reader}
    (before : reader.Before stream ending) : ∃ final, Tar.next? reader = (.ok none, final) := by
  have blocks : ending = Bytes.zeros blockSize ++ Bytes.zeros blockSize := by
    rw [ending, Nat.two_mul]
    exact List.replicate_add ..
  rw [blocks] at before
  obtain ⟨skipped, opened, skips, reads, -⟩ := before.block? List.length_replicate
  have zeros : (Bytes.zeros blockSize).all (· == 0) = true := by simp [Bytes.zeros]
  have read : Tar.nextRaw? Extensions.empty.records reader = (.ok none, opened) := by
    unfold Tar.nextRaw?
    rw [bind_apply, get_apply]
    dsimp only
    rw [bind_apply, skips]
    dsimp only
    rw [bind_apply, reads]
    dsimp only
    rw [if_pos zeros]
    rfl
  refine ⟨opened, ?_⟩
  unfold Tar.next? nextAfter?
  rw [bind_apply, read]
  rfl

end ImageAudit.Tar
