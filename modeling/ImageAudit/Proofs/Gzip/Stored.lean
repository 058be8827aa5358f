import ImageAudit.Gzip
import ImageAudit.Gzip.Writer
import ImageAudit.Proofs.Gzip.Members

/-! # What was packed is unpacked

A packer makes files that begin with the mark of gzip and that the reader unpacks to what was packed.
The writer of stored blocks is one. Its files are one member each. A block begins at a whole byte and
says how long it is, so it is inflated to its content and the next one is met behind it. Behind the
last block stand the checksum and the length, which the reader finds to be those of the content. As
the reader gets over members one after another, so it does over files that were packed. Last, the
checksum is given a form in which it can be evaluated.
-/

namespace ImageAudit.Gzip

namespace BitInput

/-- No byte is taken up where enough bits are at hand. -/
theorem fill_of_le {need available : Nat} (enough : need ≤ available) (pending : Nat)
    (rest : Bytes) : fill need pending available rest = ⟨rest, pending, available⟩ := by
  cases rest with
  | nil => rfl
  | cons byte rest => rw [fill, if_pos enough]

/-- Bits are taken from those at hand. -/
theorem take_of_le {count available : Nat} (enough : count ≤ available) (pending : Nat)
    (rest : Bytes) : (⟨rest, pending, available⟩ : BitInput).take count =
      .ok (pending % (1 <<< count), ⟨rest, pending >>> count, available - count⟩) := by
  simp only [take, fill_of_le enough, if_neg (Nat.not_lt.mpr enough)]

/-- A bit is taken from the next byte. -/
theorem take_one (byte : UInt8) (rest : Bytes) : (⟨byte :: rest, 0, 0⟩ : BitInput).take 1 =
    .ok (byte.toNat % 2, ⟨rest, byte.toNat / 2, 7⟩) := by
  have filled : fill 1 0 0 (byte :: rest) = ⟨rest, byte.toNat, 8⟩ := by
    rw [fill, if_neg (by omega), fill_of_le (by omega), Nat.shiftLeft_zero, Nat.zero_add]
  simp only [take, filled]
  rfl

/-- A number of two bytes is taken from the next two. -/
theorem take_sixteen {value : Nat} (fits : value < 0x10000) (rest : Bytes) :
    (⟨Bytes.ofNatLE 2 value ++ rest, 0, 0⟩ : BitInput).take 16 = .ok (value, ⟨rest, 0, 0⟩) := by
  have low : (UInt8.ofNat value).toNat = value % 256 := UInt8.toNat_ofNat'
  have small : value / 256 < 256 := by omega
  have high : (UInt8.ofNat (value / 256)).toNat = value / 256 := UInt8.toNat_ofNat_of_lt small
  have digits : 0 + (value % 256) <<< 0 + (value / 256) <<< (0 + 8) = value := by
    rw [Nat.shiftLeft_zero, Nat.shiftLeft_eq]
    omega
  have filled : fill 16 0 0 (Bytes.ofNatLE 2 value ++ rest) = ⟨rest, value, 16⟩ := by
    change fill 16 0 0 (UInt8.ofNat value :: UInt8.ofNat (value / 256) :: rest) = _
    rw [fill, if_neg (by omega), fill, if_neg (by omega), fill_of_le (by omega), low, high, digits]
  have whole : value % (1 <<< 16) = value := Nat.mod_eq_of_lt fits
  have nothing : value >>> 16 = 0 := by
    rw [Nat.shiftRight_eq_div_pow]
    omega
  simp only [take, filled, whole, nothing]
  rfl

end BitInput

namespace Writer

/-- A stored block is inflated to its content, wherever the bits before it ended. -/
theorem inflateStored_block {content : Bytes} (short : content.length ≤ maxBlockSize)
    (output : Output) (pending available : Nat) (rest : Bytes) :
    inflateStored output ⟨Bytes.ofNatLE 2 content.length ++
        (Bytes.ofNatLE 2 (maxBlockSize - content.length) ++ (content ++ rest)), pending, available⟩ =
      (output ++ content.toArray, .ok ⟨rest, 0, 0⟩) := by
  rw [maxBlockSize] at short ⊢
  have complement : content.length + (65535 - content.length) = 0xffff := by omega
  have enough : ¬ (content ++ rest).length < content.length := by simp
  simp only [inflateStored, BitInput.align]
  rw [BitInput.take_sixteen (by omega)]
  simp only [bind, Except.bind]
  rw [BitInput.take_sixteen (by omega)]
  simp [complement, pure, Except.pure]

/-- After a block the next one is met, unless it was the last. -/
theorem inflateBlocks_block (isLast : Bool) {content : Bytes}
    (short : content.length ≤ maxBlockSize) (fuel : Nat) (output : Output) (rest : Bytes) :
    inflateBlocks (fuel + 1) output ⟨block isLast content ++ rest, 0, 0⟩ =
      if isLast then (output ++ content.toArray, .ok ⟨rest, 0, 0⟩)
      else inflateBlocks fuel (output ++ content.toArray) ⟨rest, 0, 0⟩ := by
  have stored : block isLast content ++ rest = (if isLast then 1 else 0) ::
      (Bytes.ofNatLE 2 content.length ++
        (Bytes.ofNatLE 2 (maxBlockSize - content.length) ++ (content ++ rest))) := by
    simp [block]
  rw [inflateBlocks, stored, BitInput.take_one, Fallible.ok_bind]
  dsimp only
  rw [BitInput.take_of_le (by omega), Fallible.ok_bind]
  cases isLast
  · simp [inflateBlock, inflateStored_block short, pure, Except.pure]
  · simp [inflateBlock, inflateStored_block short, pure, Except.pure]

/-- Stored blocks are inflated to their contents, and the input stands behind them. -/
theorem inflateBlocks_blocks {pieces : List Bytes}
    (short : ∀ piece ∈ pieces, piece.length ≤ maxBlockSize) {fuel : Nat}
    (enough : pieces.length ≤ fuel) (output : Output) (rest : Bytes) :
    inflateBlocks (fuel + 1) output ⟨blocks pieces ++ rest, 0, 0⟩ =
      (output ++ pieces.flatten.toArray, .ok ⟨rest, 0, 0⟩) := by
  induction pieces using blocks.induct generalizing fuel output with
  | case1 => exact inflateBlocks_block true (Nat.zero_le _) fuel output rest
  | case2 content =>
    simpa [blocks] using inflateBlocks_block true (short content (by simp)) fuel output rest
  | case3 content pieces more ih =>
    obtain ⟨first, later⟩ := List.forall_mem_cons.mp short
    rw [List.length_cons] at enough
    obtain ⟨fuel, rfl⟩ : ∃ less, fuel = less + 1 := ⟨fuel - 1, by omega⟩
    have enough : pieces.length ≤ fuel := by omega
    rw [blocks, List.append_assoc, inflateBlocks_block false first]
    · simp [ih later enough]
    · exact more

/-- There are no more blocks than bytes. -/
theorem length_le_length_blocks (pieces : List Bytes) : pieces.length ≤ (blocks pieces).length := by
  induction pieces using blocks.induct with
  | case1 => simp
  | case2 content => simp [blocks, block]
  | case3 content pieces more ih =>
    rw [blocks]
    · simp [block]
      omega
    · exact more

/-- The blocks of a content are inflated to it, whatever stands behind them. -/
theorem inflate_blocks (content rest : Bytes) :
    inflate (blocks (Bytes.chunks maxBlockSize content).toList ++ rest) = (content, .ok rest) := by
  have positive : 0 < maxBlockSize := by decide
  have short : ∀ piece ∈ (Bytes.chunks maxBlockSize content).toList,
      piece.length ≤ maxBlockSize := by
    intro piece member
    exact Bytes.length_le_of_mem_chunks positive member
  have few := length_le_length_blocks (Bytes.chunks maxBlockSize content).toList
  have enough : (Bytes.chunks maxBlockSize content).toList.length ≤
      (blocks (Bytes.chunks maxBlockSize content).toList ++ rest).length * 8 := by
    rw [List.length_append]
    omega
  rw [inflate, inflateBlocks_blocks short enough, Bytes.flatten_chunks positive]
  simp

theorem skipHeader?_header (body : Bytes) : skipHeader? (header ++ body) = some body := by
  simp [skipHeader?, header, Bytes.slice?, Bytes.slice, magic, skipIf]

end Writer

/-- What stands behind the blocks agrees with the content. -/
theorem trailerAgrees_written (content : Bytes) :
    trailerAgrees content
      (Bytes.ofNatLE 4 (checksum content).toNat ++ Bytes.ofNatLE 4 content.length) = true := by
  rw [trailerAgrees]
  have fits : (checksum content).toNat < 256 ^ 4 := (checksum content).toNat_lt
  generalize (checksum content).toNat = sum at fits ⊢
  have first : (Bytes.ofNatLE 4 sum ++ Bytes.ofNatLE 4 content.length).slice 0 4 =
      Bytes.ofNatLE 4 sum := Bytes.slice_zero _ (Bytes.length_ofNatLE ..)
  have second : (Bytes.ofNatLE 4 sum ++ Bytes.ofNatLE 4 content.length).slice 4 4 =
      (Bytes.ofNatLE 4 content.length).slice 0 4 :=
    Bytes.slice_append_right _ 0 4 (Bytes.length_ofNatLE ..).symm
  rw [first, second, Bytes.slice_self (Bytes.length_ofNatLE ..), Bytes.natLE_ofNatLE _ _ fits,
    Bytes.natLE_ofNatLE_mod]
  simp

namespace Writer

variable (content : Bytes)

/-- A file that was packed is one member. -/
theorem isMember_compress : IsMember (compress content) content := by
  have packed : compress content = header ++
      (blocks (Bytes.chunks maxBlockSize content).toList ++
        (Bytes.ofNatLE 4 (checksum content).toNat ++ Bytes.ofNatLE 4 content.length)) := by
    simp [compress]
  have skipped := skipHeader?_header []
  have inflated := inflate_blocks content []
  rw [List.append_nil] at skipped inflated
  rw [packed]
  exact .intro skipped inflated (by simp) (trailerAgrees_written content)

/-- Files that were packed, one behind another, are unpacked to their contents in the same order. -/
theorem decompress_flatten_compress {contents : List Bytes} (someContents : contents ≠ []) :
    decompress (contents.map compress).flatten = .ofBytes contents.flatten := by
  refine unpacks_iff.mp (unpacks_ofBytes_iff.mpr ?_)
  refine ⟨contents.map fun content => (compress content, content), ?_, ?_, ?_, ?_⟩
  · exact fun none => someContents (List.map_eq_nil_iff.mp none)
  · exact List.forall_mem_map.mpr fun content _ => isMember_compress content
  · rw [List.map_map]
    rfl
  · rw [List.map_map]
    exact congrArg List.flatten (List.map_id _).symm

end Writer

/-- A packer's files begin as gzip files do, and are unpacked to what was packed. -/
structure IsPacker (pack : Bytes → Bytes) : Prop where
  marked : ∀ content, magic <+: pack content
  unpacked : ∀ content, decompress (pack content) = .ofBytes content

theorem isPacker_compress : IsPacker Writer.compress where
  marked content := by simp [Writer.compress, Writer.header, magic]
  unpacked content := by
    simpa using Writer.decompress_flatten_compress (List.cons_ne_nil content [])

section Checksum

/-- The remainder that a byte leaves, made and not looked up. -/
def byteRemainder (byte : Nat) : UInt32 :=
  (List.range 8).foldl (fun remainder _ => remainderStep remainder) (UInt32.ofNat byte)

theorem getD_remainderTable {byte : Nat} (small : byte < 256) :
    remainderTable.getD byte 0 = byteRemainder byte := by
  simp [remainderTable, small, byteRemainder]

def withByte (remainder : UInt32) (byte : UInt8) : UInt32 :=
  (remainder >>> 8) ^^^ byteRemainder ((remainder ^^^ byte.toUInt32) &&& 0xff).toNat

theorem addByte_remainderTable : addByte remainderTable = withByte := by
  funext remainder byte
  have small : ((remainder ^^^ byte.toUInt32) &&& 0xff).toNat < 256 := by
    rw [UInt32.toNat_and]
    exact Nat.lt_of_le_of_lt Nat.and_le_right (by decide)
  rw [addByte, getD_remainderTable small, withByte]

/-- The checksum without a table, through which an evaluation would pass for every byte. -/
theorem checksum_eq (data : Bytes) :
    checksum data = data.foldl withByte 0xffffffff ^^^ 0xffffffff := by
  rw [checksum, addByte_remainderTable]

end Checksum

end ImageAudit.Gzip
