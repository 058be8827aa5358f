import ImageAudit.Bytes

/-! # Inflating

A deflated stream is a sequence of blocks, read bit by bit, the low bits of each byte first. A block
holds bytes as they are, or symbols in a prefix code: a symbol is a byte, the end of the block, or a
length, which is followed by the distance of an earlier piece of the output to repeat. A distance may
reach back behind the beginning of the output, where zeros lie. The code is fixed or described at the
head of the block by the length of each symbol's code word.
-/

namespace ImageAudit.Gzip

/-- Why inflating stopped early. -/
inductive InflateFault where
  /-- The input ended. -/
  | cut
  /-- The input is no deflated stream. -/
  | broken
  deriving DecidableEq, Repr

/-- Input not yet read, with the bits left of the byte read last. -/
structure BitInput where
  rest : Bytes
  /-- The bits, the next one lowest. -/
  pending : Nat
  available : Nat
  deriving DecidableEq, Repr

namespace BitInput

/-- Takes bytes up until `need` bits are at hand or the input ends. -/
def fill (need pending available : Nat) : Bytes → BitInput
  | [] => ⟨[], pending, available⟩
  | byte :: rest =>
    if need ≤ available then ⟨byte :: rest, pending, available⟩
    else fill need (pending + (byte.toNat <<< available)) (available + 8) rest

/-- The next bits as a number, the first one lowest. -/
def take (input : BitInput) (count : Nat) : Except InflateFault (Nat × BitInput) :=
  let filled := fill count input.pending input.available input.rest
  if filled.available < count then .error .cut
  else .ok (filled.pending % (1 <<< count),
    ⟨filled.rest, filled.pending >>> count, filled.available - count⟩)

/-- The input from the next whole byte on. -/
def align (input : BitInput) : BitInput := ⟨input.rest, 0, 0⟩

def bitsLeft (input : BitInput) : Nat := input.rest.length * 8 + input.available

end BitInput

/-- A prefix code: how many code words there are of each length from one bit to the longest, and the
symbols in the order of their code words. -/
structure PrefixCode where
  counts : List Nat
  symbols : Array Nat
  deriving DecidableEq, Repr

namespace PrefixCode

/-- The part of the code space that is left after the counted words, in words of the longest
length; none when the words do not fit. -/
def spaceLeft? (counts : List Nat) : Option Nat :=
  counts.foldl (fun left count => do
    let left := (← left) * 2
    if left < count then none else some (left - count)) (some 1)

/-- The code in which each symbol has a word of the given length, none where the length is zero. The
words must fill the code space, unless there is none or a single one of one bit. -/
def ofLengths (lengths : List Nat) : Except InflateFault PrefixCode :=
  let longest := lengths.foldl max 1
  let lengthsOf := (List.range longest).map (· + 1)
  let counts := lengthsOf.map fun length => lengths.count length
  let symbols := lengthsOf.flatMap fun length =>
    (lengths.zipIdx.filter (·.1 = length)).map (·.2)
  match spaceLeft? counts with
  | none => .error .broken
  | some left =>
    if 0 < left ∧ (1 < symbols.length ∨ 1 < longest) then .error .broken
    else .ok ⟨counts, symbols.toArray⟩

/-- Reads bits until they are a code word. `word` is what was read so far, `first` the first word of
that length, and `index` the position of its symbol. -/
def walk (symbols : Array Nat) :
    List Nat → Nat → Nat → Nat → BitInput → Except InflateFault (Nat × BitInput)
  | [], _, _, _, _ => .error .broken
  | count :: longer, word, first, index, input => do
    let (bit, input) ← input.take 1
    let word := word * 2 + bit
    let first := first * 2
    if word < first + count then return (symbols.getD (index + (word - first)) 0, input)
    else walk symbols longer word (first + count) (index + count) input

def next (code : PrefixCode) (input : BitInput) : Except InflateFault (Nat × BitInput) :=
  walk code.symbols code.counts 0 0 0 input

end PrefixCode

/-- For each length symbol from 257 on, the shortest length and the number of further bits. -/
def lengthTable : Array (Nat × Nat) :=
  #[(3, 0), (4, 0), (5, 0), (6, 0), (7, 0), (8, 0), (9, 0), (10, 0), (11, 1), (13, 1), (15, 1),
    (17, 1), (19, 2), (23, 2), (27, 2), (31, 2), (35, 3), (43, 3), (51, 3), (59, 3), (67, 4),
    (83, 4), (99, 4), (115, 4), (131, 5), (163, 5), (195, 5), (227, 5), (258, 0)]

/-- For each distance symbol, the shortest distance and the number of further bits. -/
def distanceTable : Array (Nat × Nat) :=
  #[(1, 0), (2, 0), (3, 0), (4, 0), (5, 1), (7, 1), (9, 2), (13, 2), (17, 3), (25, 3), (33, 4),
    (49, 4), (65, 5), (97, 5), (129, 6), (193, 6), (257, 7), (385, 7), (513, 8), (769, 8),
    (1025, 9), (1537, 9), (2049, 10), (3073, 10), (4097, 11), (6145, 11), (8193, 12), (12289, 12),
    (16385, 13), (24577, 13)]

/-- The order in which the lengths of the code for code lengths are stored. -/
def codeLengthOrder : List Nat :=
  [16, 17, 18, 0, 8, 7, 9, 6, 10, 5, 11, 4, 12, 3, 13, 2, 14, 1, 15]

abbrev Output := Array UInt8

/-- The byte at a distance back from the end of the output, zero before its beginning. -/
def Output.back (output : Output) (distance : Nat) : UInt8 :=
  if distance ≤ output.size then output.getD (output.size - distance) 0 else 0

/-- Appends bytes from a fixed distance back, one by one. -/
def repeatFrom (distance : Nat) : Nat → Output → Output
  | 0, output => output
  | count + 1, output => repeatFrom distance count (output.push (output.back distance))

/-- Reads a symbol's value from a table: the shortest value and further bits. It stays folded where
the loop around it is unfolded, since a place in a table is a difference of numbers. -/
@[irreducible] def tableValue (table : Array (Nat × Nat)) (symbol : Nat) (input : BitInput) :
    Except InflateFault (Nat × BitInput) :=
  match table[symbol]? with
  | none => .error .broken
  | some (least, bits) => do
    let (more, input) ← input.take bits
    return (least + more, input)

/-- What inflating a part of a stream came to: the output, and the input after it or the fault. -/
abbrev Inflated := Output × Except InflateFault BitInput

/-- Inflates symbols up to the end of their block. The fuel bounds their number. -/
def inflateSymbols (literals distances : PrefixCode) : Nat → Output → BitInput → Inflated
  | 0, output, _ => (output, .error .broken)
  | fuel + 1, output, input =>
    match literals.next input with
    | .error fault => (output, .error fault)
    | .ok (symbol, input) =>
      if symbol < 256 then
        inflateSymbols literals distances fuel (output.push (UInt8.ofNat symbol)) input
      else if symbol = 256 then (output, .ok input)
      else
        let piece : Except InflateFault (Nat × Nat × BitInput) := do
          let (length, input) ← tableValue lengthTable (symbol - 257) input
          let (symbol, input) ← distances.next input
          let (distance, input) ← tableValue distanceTable symbol input
          return (length, distance, input)
        match piece with
        | .error fault => (output, .error fault)
        | .ok (length, distance, input) =>
          inflateSymbols literals distances fuel (repeatFrom distance length output) input

/-- Inflates a block of bytes as they are: a length, its complement, and the bytes. -/
def inflateStored (output : Output) (input : BitInput) : Inflated :=
  match (do
    let (length, input) ← input.align.take 16
    let (complement, input) ← input.take 16
    if length + complement ≠ 0xffff then throw InflateFault.broken
    return (length, input)) with
  | .error fault => (output, .error fault)
  | .ok (length, input) =>
    let output := (input.rest.take length).foldl Array.push output
    if input.rest.length < length then (output, .error .cut)
    else (output, .ok ⟨input.rest.drop length, 0, 0⟩)

/-- The code of literals and lengths in a block of the fixed code. -/
def fixedLiteralLengths : List Nat :=
  List.replicate 144 8 ++ List.replicate 112 9 ++ List.replicate 24 7 ++ List.replicate 8 8

/-- The code of distances in a block of the fixed code. -/
def fixedDistanceLengths : List Nat := List.replicate 32 5

/-- Reads the lengths of the code for code lengths, in stored order. -/
def readShortLengths : Nat → BitInput → Except InflateFault (List Nat × BitInput)
  | 0, input => .ok ([], input)
  | count + 1, input => do
    let (length, input) ← input.take 3
    let (lengths, input) ← readShortLengths count input
    return (length :: lengths, input)

/-- Reads code lengths until there are `total`; `read` holds those so far, last first. A symbol is a
length, or it repeats the length before, or zero. -/
def readCodeLengths (code : PrefixCode) (total : Nat) :
    Nat → List Nat → BitInput → Except InflateFault (List Nat × BitInput)
  | 0, _, _ => .error .broken
  | fuel + 1, read, input =>
    if read.length = total then .ok (read.reverse, input)
    else if total < read.length then .error .broken
    else do
      let (symbol, input) ← code.next input
      if symbol < 16 then readCodeLengths code total fuel (symbol :: read) input
      else if symbol = 16 then
        match read with
        | [] => throw .broken
        | length :: _ =>
          let (more, input) ← input.take 2
          readCodeLengths code total fuel (List.replicate (3 + more) length ++ read) input
      else
        let (more, input) ← input.take (if symbol = 17 then 3 else 7)
        let count := (if symbol = 17 then 3 else 11) + more
        readCodeLengths code total fuel (List.replicate count 0 ++ read) input

def readCodes (input : BitInput) : Except InflateFault (PrefixCode × PrefixCode × BitInput) := do
  let (literals, input) ← input.take 5
  let (distances, input) ← input.take 5
  let (shorts, input) ← input.take 4
  if 29 < literals ∨ 29 < distances then throw .broken
  let (lengths, input) ← readShortLengths (shorts + 4) input
  let byLength := (List.range 19).map fun symbol =>
    lengths.getD (codeLengthOrder.idxOf symbol) 0
  let code ← PrefixCode.ofLengths byLength
  let total := literals + 257 + (distances + 1)
  let (lengths, input) ← readCodeLengths code total (total + 1) [] input
  let literalCode ← PrefixCode.ofLengths (lengths.take (literals + 257))
  let distanceCode ← PrefixCode.ofLengths (lengths.drop (literals + 257))
  return (literalCode, distanceCode, input)

def inflateCoded (codes : Except InflateFault (PrefixCode × PrefixCode × BitInput))
    (output : Output) : Inflated :=
  match codes with
  | .error fault => (output, .error fault)
  | .ok (literals, distances, input) =>
    inflateSymbols literals distances (input.bitsLeft + 1) output input

def inflateBlock (kind : Nat) (output : Output) (input : BitInput) : Inflated :=
  if kind = 0 then inflateStored output input
  else if kind = 1 then
    inflateCoded (do
      return (← PrefixCode.ofLengths fixedLiteralLengths,
        ← PrefixCode.ofLengths fixedDistanceLengths, input)) output
  else if kind = 2 then inflateCoded (readCodes input) output
  else (output, .error .broken)

/-- Inflates blocks up to the last one. The fuel bounds their number. -/
def inflateBlocks : Nat → Output → BitInput → Inflated
  | 0, output, _ => (output, .error .broken)
  | fuel + 1, output, input =>
    match (do
      let (last, input) ← input.take 1
      let (kind, input) ← input.take 2
      return (last, kind, input)) with
    | .error fault => (output, .error fault)
    | .ok (last, kind, input) =>
      match inflateBlock kind output input with
      | (output, .error fault) => (output, .error fault)
      | (output, .ok input) =>
        if last = 1 then (output, .ok input) else inflateBlocks fuel output input

/-- Inflates the stream at the front of the bytes. On success the bytes after it are left; on a
fault the output is what came before it. -/
def inflate (data : Bytes) : Bytes × Except InflateFault Bytes :=
  match inflateBlocks (data.length * 8 + 1) #[] ⟨data, 0, 0⟩ with
  | (output, .ok input) => (output.toList, .ok input.rest)
  | (output, .error fault) => (output.toList, .error fault)

end ImageAudit.Gzip
