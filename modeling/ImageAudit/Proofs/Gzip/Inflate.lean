import ImageAudit.Gzip.Inflate
import ImageAudit.Proofs.Fallible

/-! # Where a deflated stream ends

Inflating looks at no byte behind the stream. Each step is local: where it succeeds it has used up
some bytes at the front and so many bits at least, and it reads the same from these bytes whatever
stands behind them. Local steps make up local ones, and so do the loops over symbols and over
blocks: each turn uses up a bit, so there are never more turns than bits at hand, which is what the
fuel allows for.
-/

namespace ImageAudit.Gzip

namespace BitInput

variable {α β σ : Type}

/-- Between the two inputs these bytes are used up, and so many bits at least. -/
structure Uses (input next : BitInput) (used : Bytes) (least : Nat) : Prop where
  bytes : input.rest = used ++ next.rest
  bits : next.available + least ≤ used.length * 8 + input.available

/-- Where the step succeeds it uses up so many bits at least, and reads the same from the bytes that
it uses up whatever stands behind them. -/
def Local (least : Nat) (step : BitInput → Except InflateFault (α × BitInput)) : Prop :=
  ∀ ⦃input value next⦄, step input = .ok (value, next) → ∃ used, Uses input next used least ∧
    ∀ rest, step { input with rest := used ++ rest } = .ok (value, { next with rest := rest })

theorem local_ok (value : α) : Local 0 fun input => .ok (value, input) := by
  intro input value' next ran
  cases ran
  exact ⟨[], ⟨rfl, by simp⟩, fun rest => rfl⟩

theorem local_error (least : Nat) (fault : InflateFault) :
    Local least fun _ => (.error fault : Except InflateFault (α × BitInput)) :=
  fun _ _ _ ran => nomatch ran

section Steps

variable {m n : Nat} {step : BitInput → Except InflateFault (α × BitInput)}

theorem Local.mono (holds : Local m step) (less : n ≤ m) : Local n step := by
  intro input value next ran
  obtain ⟨used, uses, again⟩ := holds ran
  exact ⟨used, ⟨uses.bytes, Nat.le_trans (Nat.add_le_add_left less _) uses.bits⟩, again⟩

/-- What is used up by one step and then by another is used up by both. -/
theorem Uses.trans {input between next : BitInput} {used more : Bytes}
    (first : Uses input between used m) (second : Uses between next more n) :
    Uses input next (used ++ more) (m + n) := by
  refine ⟨?_, ?_⟩
  · rw [first.bytes, second.bytes, List.append_assoc]
  · have before := first.bits
    have after := second.bits
    rw [List.length_append]
    omega

theorem Local.bind {rest : α × BitInput → Except InflateFault (β × BitInput)}
    (first : Local m step) (second : ∀ value, Local n fun input => rest (value, input)) :
    Local (m + n) fun input => step input >>= rest := by
  intro input value next ran
  obtain ⟨⟨read, between⟩, ran, runs⟩ := Fallible.bind_eq_ok_iff.mp ran
  obtain ⟨used, uses, again⟩ := first ran
  obtain ⟨more, uses', again'⟩ := second read runs
  refine ⟨used ++ more, uses.trans uses', fun behind => ?_⟩
  dsimp only
  rw [List.append_assoc, again (more ++ behind)]
  exact again' behind

/-- What is made of the outcome in the end does not matter to where it is read. -/
theorem Local.bind_map {γ : Type} {rest : α × BitInput → Except InflateFault γ}
    {f : γ → β × BitInput} (first : Local m step)
    (second : ∀ value, Local n fun input => (rest (value, input)).map f) :
    Local (m + n) fun input => (step input >>= rest).map f := by
  have same : (fun input => (step input >>= rest).map f) =
      fun input => step input >>= fun read => (rest read).map f := by
    funext input
    cases step input <;> rfl
  rw [same]
  exact first.bind second

theorem local_given_map {γ δ : Type} (outcome : Except InflateFault δ)
    {rest : δ → BitInput → Except InflateFault γ} {f : γ → β × BitInput}
    (each : ∀ value, Local n fun input => (rest value input).map f) :
    Local n fun input => (outcome >>= fun value => rest value input).map f := by
  cases outcome with
  | error fault => exact local_error n fault
  | ok value => exact each value

theorem Local.map (holds : Local n step) (f : α → β) :
    Local n fun input => step input >>= fun (value, input) => pure (f value, input) := by
  refine holds.bind (n := 0) fun value => ?_
  exact local_ok (f value)

theorem Local.ite {condition : Prop} [Decidable condition]
    {other : BitInput → Except InflateFault (α × BitInput)} (holds : Local n step)
    (holds' : Local n other) : Local n fun input => if condition then step input else other input := by
  split
  · exact holds
  · exact holds'

end Steps

/-- Bytes are taken up until enough bits are at hand, and no further. -/
theorem exists_fill (need pending available : Nat) (data : Bytes) :
    ∃ used, data = used ++ (fill need pending available data).rest ∧
      (fill need pending available data).available = used.length * 8 + available ∧
      (need ≤ (fill need pending available data).available → ∀ rest,
        fill need pending available (used ++ rest) =
          { fill need pending available data with rest := rest }) := by
  induction data generalizing pending available with
  | nil =>
    refine ⟨[], rfl, by simp [fill], fun enough rest => ?_⟩
    cases rest with
    | nil => rfl
    | cons byte rest => exact if_pos enough
  | cons byte data ih =>
    by_cases enough : need ≤ available
    · rw [fill, if_pos enough]
      refine ⟨[], rfl, by simp, fun _ rest => ?_⟩
      cases rest with
      | nil => rfl
      | cons other rest => exact if_pos enough
    · obtain ⟨used, split, bits, again⟩ :=
        ih (pending + (byte.toNat <<< available)) (available + 8)
      rw [fill, if_neg enough]
      refine ⟨byte :: used, congrArg (byte :: ·) split, ?_, fun filled rest => ?_⟩
      · rw [bits, List.length_cons]
        omega
      · rw [List.cons_append, fill, if_neg enough]
        exact again filled rest

theorem local_take (count : Nat) : Local count fun input => input.take count := by
  intro input value next ran
  obtain ⟨used, split, bits, again⟩ := exists_fill count input.pending input.available input.rest
  unfold take at ran
  dsimp only at ran
  split at ran
  · cases ran
  · rename_i enough
    cases ran
    refine ⟨used, ⟨split, ?_⟩, fun rest => ?_⟩
    · dsimp only
      omega
    · simp only [take, again (Nat.le_of_not_lt enough) rest, if_neg enough]

theorem Local.align {n : Nat} {step : BitInput → Except InflateFault (α × BitInput)}
    (holds : Local n step) : Local n fun input => step input.align := by
  intro input value next ran
  obtain ⟨used, uses, again⟩ := holds ran
  have bits : next.available + n ≤ used.length * 8 + 0 := uses.bits
  refine ⟨used, ⟨uses.bytes, ?_⟩, again⟩
  omega

/-- A turn of a loop ends with a value, or the loop goes on from a new state. -/
def goOn (loop : σ → BitInput → Except InflateFault (α × BitInput)) :
    (σ ⊕ α) × BitInput → Except InflateFault (α × BitInput)
  | (.inl state, input) => loop state input
  | (.inr value, input) => .ok (value, input)

/-- A loop whose turns are local and use up a bit each is local, with as much fuel as there are bits
and one more. -/
theorem local_loop (loop : Nat → σ → BitInput → Except InflateFault (α × BitInput))
    {turn : σ → BitInput → Except InflateFault ((σ ⊕ α) × BitInput)}
    (spent : ∀ state input read, loop 0 state input ≠ .ok read)
    (turns : ∀ fuel state input,
      loop (fuel + 1) state input = turn state input >>= goOn (loop fuel))
    (locally : ∀ state, Local 1 (turn state)) (state : σ) :
    Local 1 fun input => loop (input.bitsLeft + 1) state input := by
  -- The induction is on the fuel of the run at hand. Any other fuel that covers the bits which this
  -- run uses up does as well, so the runs on what stands behind need not have the same.
  have runs (fuel : Nat) (state : σ) (input : BitInput) (value : α) (next : BitInput)
      (ran : loop fuel state input = .ok (value, next)) :
      ∃ used, Uses input next used 1 ∧ ∀ rest fuel',
        used.length * 8 + input.available ≤ fuel' + next.available →
          loop fuel' state { input with rest := used ++ rest } =
            .ok (value, { next with rest := rest }) := by
    induction fuel generalizing state input with
    | zero => exact absurd ran (spent state input _)
    | succ fuel ih =>
      rw [turns] at ran
      obtain ⟨⟨read, between⟩, turned, ran⟩ := Fallible.bind_eq_ok_iff.mp ran
      obtain ⟨used, uses, again⟩ := locally state turned
      have bits : between.available + 1 ≤ used.length * 8 + input.available := uses.bits
      cases read with
      | inr ended =>
        obtain ⟨rfl, rfl⟩ := Prod.mk.inj (Except.ok.inj ran)
        refine ⟨used, uses, fun rest fuel' enough => ?_⟩
        obtain ⟨less, rfl⟩ : ∃ less, fuel' = less + 1 := ⟨fuel' - 1, by omega⟩
        rw [turns, again rest]
        rfl
      | inl state' =>
        obtain ⟨more, uses', again'⟩ := ih state' between ran
        have bits' := uses'.bits
        refine ⟨used ++ more, ?_, fun rest fuel' enough => ?_⟩
        · have both := uses.trans uses'
          exact ⟨both.bytes, by have := both.bits; omega⟩
        · rw [List.length_append] at enough
          obtain ⟨less, rfl⟩ : ∃ less, fuel' = less + 1 := ⟨fuel' - 1, by omega⟩
          rw [turns, List.append_assoc, again (more ++ rest)]
          exact again' rest less (by omega)
  intro input value next ran
  obtain ⟨used, uses, again⟩ := runs _ state input value next ran
  refine ⟨used, uses, fun rest => again rest _ ?_⟩
  rw [bitsLeft, List.length_append]
  dsimp only
  omega

end BitInput

open BitInput

section Codes

theorem PrefixCode.local_walk (symbols : Array Nat) (counts : List Nat) (word first index : Nat) :
    Local 1 (walk symbols counts word first index) := by
  induction counts generalizing word first index with
  | nil => exact local_error 1 _
  | cons count longer ih =>
    refine (local_take 1).bind (n := 0) fun bit => ?_
    exact .ite (local_ok _) ((ih _ _ _).mono (Nat.zero_le 1))

theorem PrefixCode.local_next (code : PrefixCode) : Local 1 code.next :=
  local_walk code.symbols code.counts 0 0 0

theorem local_tableValue (table : Array (Nat × Nat)) (symbol : Nat) :
    Local 0 (tableValue table symbol) := by
  unfold tableValue
  cases table[symbol]? with
  | none => exact local_error 0 _
  | some entry => exact ((local_take entry.2).map (entry.1 + ·)).mono (Nat.zero_le _)

theorem local_readShortLengths (count : Nat) : Local 0 (readShortLengths count) := by
  induction count with
  | zero => exact local_ok []
  | succ count ih =>
    exact ((local_take 3).bind fun length => ih.map (length :: ·)).mono (Nat.zero_le _)

theorem local_readCodeLengths (code : PrefixCode) (total fuel : Nat) (read : List Nat) :
    Local 0 (readCodeLengths code total fuel read) := by
  induction fuel generalizing read with
  | zero => exact local_error 0 _
  | succ fuel ih =>
    refine .ite (local_ok _) (.ite (local_error 0 _) ?_)
    refine (code.local_next.bind (n := 0) fun symbol => ?_).mono (Nat.zero_le 1)
    refine .ite (ih _) (.ite ?_ ?_)
    · cases read with
      | nil => exact local_error 0 _
      | cons length read =>
        exact ((local_take 2).bind fun more => ih _).mono (Nat.zero_le _)
    · exact ((local_take _).bind fun more => ih _).mono (Nat.zero_le _)

/-- The codes as one value, in front of the input behind their description. -/
def paired (read : PrefixCode × PrefixCode × BitInput) : (PrefixCode × PrefixCode) × BitInput :=
  ((read.1, read.2.1), read.2.2)

theorem local_readCodes : Local 0 fun input => (readCodes input).map paired := by
  unfold readCodes
  refine ((local_take 5).bind_map (n := 0) fun literals => ?_).mono (Nat.zero_le _)
  refine ((local_take 5).bind_map (n := 0) fun distances => ?_).mono (Nat.zero_le _)
  refine ((local_take 4).bind_map (n := 0) fun shorts => ?_).mono (Nat.zero_le _)
  by_cases large : 29 < literals ∨ 29 < distances
  · simp only [if_pos large]
    exact local_error 0 _
  · simp only [if_neg large]
    -- The readers stand as variables, so that nothing unfolds them where their bounds are sums.
    have readsShort := local_readShortLengths (shorts + 4)
    generalize readShortLengths (shorts + 4) = readShort at readsShort ⊢
    refine readsShort.bind_map (n := 0) fun lengths => ?_
    dsimp only
    refine local_given_map _ fun code => ?_
    have readsLengths := local_readCodeLengths code (literals + 257 + (distances + 1))
      (literals + 257 + (distances + 1) + 1) []
    generalize readCodeLengths code _ _ [] = readLengths at readsLengths ⊢
    refine readsLengths.bind_map (n := 0) fun lengths => ?_
    dsimp only
    refine local_given_map _ fun literalCode => ?_
    refine local_given_map _ fun distanceCode => ?_
    exact local_ok (literalCode, distanceCode)

end Codes

/-- The output with the input behind it, or the fault. -/
def Inflated.outcome (inflated : Inflated) : Except InflateFault (Output × BitInput) :=
  inflated.2.map (inflated.1, ·)

theorem Inflated.outcome_eq_ok_iff {inflated : Inflated} {output : Output} {next : BitInput} :
    inflated.outcome = .ok (output, next) ↔ inflated = (output, .ok next) := by
  obtain ⟨written, result⟩ := inflated
  cases result <;> simp [outcome, Except.map]

section Blocks

/-- One turn of the loop over symbols: the output that the next symbol leads to, from which it goes
on, or the output at the end of the block. -/
def symbolTurn (literals distances : PrefixCode) (output : Output) (input : BitInput) :
    Except InflateFault ((Output ⊕ Output) × BitInput) := do
  let (symbol, input) ← literals.next input
  if symbol < 256 then return (.inl (output.push (UInt8.ofNat symbol)), input)
  else if symbol = 256 then return (.inr output, input)
  else do
    let (length, input) ← tableValue lengthTable (symbol - 257) input
    let (symbol, input) ← distances.next input
    let (distance, input) ← tableValue distanceTable symbol input
    return (.inl (repeatFrom distance length output), input)

theorem local_symbolTurn (literals distances : PrefixCode) (output : Output) :
    Local 1 (symbolTurn literals distances output) := by
  refine literals.local_next.bind (n := 0) fun symbol => ?_
  refine .ite (local_ok _) (.ite (local_ok _) ?_)
  refine (local_tableValue _ _).bind (n := 0) fun length => ?_
  refine (distances.local_next.bind (n := 0) fun symbol => ?_).mono (Nat.zero_le _)
  refine (local_tableValue distanceTable symbol).bind (n := 0) fun distance => ?_
  exact local_ok (Sum.inl (repeatFrom distance length output))

theorem inflateSymbols_succ (literals distances : PrefixCode) (fuel : Nat) (output : Output)
    (input : BitInput) :
    (inflateSymbols literals distances (fuel + 1) output input).outcome =
      symbolTurn literals distances output input >>= goOn fun output input =>
        (inflateSymbols literals distances fuel output input).outcome := by
  rw [inflateSymbols, symbolTurn]
  cases literals.next input with
  | error fault => rfl
  | ok read =>
    obtain ⟨symbol, input⟩ := read
    simp only [Fallible.ok_bind]
    split_ifs with literal ends
    · rfl
    · rfl
    · cases tableValue lengthTable (symbol - 257) input with
      | error fault => rfl
      | ok read =>
        obtain ⟨length, input⟩ := read
        simp only [Fallible.ok_bind]
        cases distances.next input with
        | error fault => rfl
        | ok read =>
          obtain ⟨symbol, input⟩ := read
          simp only [Fallible.ok_bind]
          cases tableValue distanceTable symbol input <;> rfl

theorem local_inflateSymbols (literals distances : PrefixCode) (output : Output) :
    Local 1 fun input =>
      (inflateSymbols literals distances (input.bitsLeft + 1) output input).outcome :=
  local_loop
    (fun fuel output input => (inflateSymbols literals distances fuel output input).outcome)
    (fun _ _ _ => nofun) (inflateSymbols_succ literals distances)
    (local_symbolTurn literals distances) output

/-- Reads the length of a stored block, which stands at a whole byte. -/
def storedLength (input : BitInput) : Except InflateFault (Nat × BitInput) := do
  let (length, input) ← input.align.take 16
  let (complement, input) ← input.take 16
  if length + complement ≠ 0xffff then throw InflateFault.broken
  return (length, input)

def storedBytes (output : Output) (length : Nat) (input : BitInput) :
    Except InflateFault (Output × BitInput) :=
  if input.rest.length < length then .error .cut
  else .ok ((input.rest.take length).foldl Array.push output, ⟨input.rest.drop length, 0, 0⟩)

theorem outcome_inflateStored (output : Output) (input : BitInput) :
    (inflateStored output input).outcome =
      storedLength input >>= fun (length, input) => storedBytes output length input := by
  unfold inflateStored
  split
  · rename_i fault failed
    have read : storedLength input = .error fault := failed
    rw [read]
    rfl
  · rename_i length next succeeded
    have read : storedLength input = .ok (length, next) := succeeded
    simp only [read, Fallible.ok_bind, storedBytes]
    split_ifs <;> rfl

theorem local_storedLength : Local 0 storedLength := by
  have plain : Local 0 fun input : BitInput => do
      let (length, input) ← input.take 16
      let (complement, input) ← input.take 16
      if length + complement ≠ 0xffff then throw InflateFault.broken
      return (length, input) := by
    refine ((local_take 16).bind (n := 0) fun length => ?_).mono (Nat.zero_le _)
    refine ((local_take 16).bind (n := 0) fun complement => ?_).mono (Nat.zero_le _)
    exact .ite (local_error 0 _) (local_ok _)
  exact plain.align

theorem local_storedBytes (output : Output) (length : Nat) :
    Local 0 (storedBytes output length) := by
  intro input value next ran
  unfold storedBytes at ran
  split at ran
  · cases ran
  · rename_i enough
    cases ran
    have size : (input.rest.take length).length = length :=
      List.length_take_of_le (Nat.le_of_not_lt enough)
    refine ⟨input.rest.take length, ⟨(List.take_append_drop ..).symm, Nat.zero_le _⟩, ?_⟩
    intro rest
    have enough' : ¬ (input.rest.take length ++ rest).length < length := by
      rw [List.length_append]
      omega
    rw [storedBytes, if_neg enough', List.take_left' size, List.drop_left' size]

theorem local_inflateStored (output : Output) :
    Local 0 fun input => (inflateStored output input).outcome := by
  simp only [outcome_inflateStored]
  refine local_storedLength.bind (n := 0) fun length => ?_
  exact local_storedBytes output length

theorem local_inflateCoded
    {codes : BitInput → Except InflateFault (PrefixCode × PrefixCode × BitInput)}
    (holds : Local 0 fun input => (codes input).map paired) (output : Output) :
    Local 0 fun input => (inflateCoded (codes input) output).outcome := by
  have same (input : BitInput) : (inflateCoded (codes input) output).outcome =
      (codes input).map paired >>= fun read =>
        (inflateSymbols read.1.1 read.1.2 (read.2.bitsLeft + 1) output read.2).outcome := by
    unfold inflateCoded
    cases codes input <;> rfl
  simp only [same]
  refine (holds.bind (n := 1) fun pair => ?_).mono (Nat.zero_le _)
  exact local_inflateSymbols pair.1 pair.2 output

theorem local_inflateBlock (kind : Nat) (output : Output) :
    Local 0 fun input => (inflateBlock kind output input).outcome := by
  simp only [inflateBlock, apply_ite Inflated.outcome]
  refine .ite (local_inflateStored output) (.ite ?_ (.ite ?_ ?_))
  · apply local_inflateCoded
    refine local_given_map _ fun literals => ?_
    refine local_given_map _ fun distances => ?_
    exact local_ok (literals, distances)
  · exact local_inflateCoded local_readCodes output
  · exact local_error 0 _

/-- One turn of the loop over blocks: the output at the end of the next block, at which the stream
ends if it is the last one. -/
def blockTurn (output : Output) (input : BitInput) :
    Except InflateFault ((Output ⊕ Output) × BitInput) := do
  let (last, input) ← input.take 1
  let (kind, input) ← input.take 2
  let (output, input) ← (inflateBlock kind output input).outcome
  if last = 1 then return (.inr output, input) else return (.inl output, input)

theorem local_blockTurn (output : Output) : Local 1 (blockTurn output) := by
  refine (local_take 1).bind (n := 0) fun last => ?_
  refine ((local_take 2).bind (n := 0) fun kind => ?_).mono (Nat.zero_le _)
  refine (local_inflateBlock kind output).bind (n := 0) fun output => ?_
  exact .ite (local_ok (Sum.inr output)) (local_ok (Sum.inl output))

theorem inflateBlocks_succ (fuel : Nat) (output : Output) (input : BitInput) :
    (inflateBlocks (fuel + 1) output input).outcome =
      blockTurn output input >>= goOn fun output input =>
        (inflateBlocks fuel output input).outcome := by
  rw [inflateBlocks, blockTurn]
  cases input.take 1 with
  | error fault => rfl
  | ok read =>
    obtain ⟨last, input⟩ := read
    simp only [Fallible.ok_bind]
    cases input.take 2 with
    | error fault => rfl
    | ok read =>
      obtain ⟨kind, input⟩ := read
      simp only [Fallible.ok_bind, pure, Except.pure]
      obtain ⟨output, result⟩ := inflateBlock kind output input
      cases result with
      | error fault => rfl
      | ok input =>
        rw [Inflated.outcome_eq_ok_iff.mpr rfl]
        simp only [Fallible.ok_bind]
        split_ifs <;> rfl

theorem local_inflateBlocks (output : Output) :
    Local 1 fun input => (inflateBlocks (input.bitsLeft + 1) output input).outcome :=
  local_loop (fun fuel output input => (inflateBlocks fuel output input).outcome)
    (fun _ _ _ => nofun) inflateBlocks_succ local_blockTurn output

end Blocks

/-- A stream is inflated to the same whatever stands behind it, and it is not empty. -/
theorem exists_of_inflate {data content rest : Bytes} (ended : inflate data = (content, .ok rest)) :
    ∃ stream, data = stream ++ rest ∧ stream ≠ [] ∧
      ∀ behind, inflate (stream ++ behind) = (content, .ok behind) := by
  unfold inflate at ended
  split at ended
  · rename_i output next blocks
    obtain ⟨rfl, behind⟩ := Prod.mk.inj ended
    cases behind
    obtain ⟨stream, uses, again⟩ :=
      local_inflateBlocks #[] (Inflated.outcome_eq_ok_iff.mpr blocks)
    have bits : next.available + 1 ≤ stream.length * 8 + 0 := uses.bits
    refine ⟨stream, uses.bytes, ?_, fun behind => ?_⟩
    · rintro rfl
      cases bits
    · have blocks' : inflateBlocks ((stream ++ behind).length * 8 + 1) #[]
          ⟨stream ++ behind, 0, 0⟩ = (output, .ok { next with rest := behind }) :=
        Inflated.outcome_eq_ok_iff.mp (again behind)
      rw [inflate, blocks']
  · cases ended

end ImageAudit.Gzip
