import ImageAudit.Gzip
import ImageAudit.Proofs.Bytes
import ImageAudit.Proofs.Gzip.Inflate
import Mathlib.Data.List.TakeWhile

/-! # Members of gzip files

A member is a header, a deflated stream, and a trailer that agrees with the content. Each part shows
where it ends, so a member is read the same whatever stands behind it. The reader gets the contents
of the members one after another. It gets to the end exactly where the file is members from its
first byte to its last; otherwise it fails in the part that is no whole member, after what that part
gives.
-/

namespace ImageAudit.Gzip

section Skipping

/-- The same bytes are skipped whatever stands behind them. -/
def Skips (skip? : Bytes → Option Bytes) : Prop :=
  ∀ ⦃data rest⦄, skip? data = some rest → ∃ skipped, data = skipped ++ rest ∧
    ∀ behind, skip? (skipped ++ behind) = some behind

variable {skip? skip?' : Bytes → Option Bytes}

theorem skips_some : Skips some := by
  intro data rest skipped
  cases skipped
  exact ⟨[], rfl, fun _ => rfl⟩

theorem Skips.bind (first : Skips skip?) (second : Skips skip?') :
    Skips fun data => skip? data >>= skip?' := by
  intro data rest skipped
  obtain ⟨between, skipped, skipped'⟩ := Option.bind_eq_some_iff.mp skipped
  obtain ⟨before, rfl, again⟩ := first skipped
  obtain ⟨after, rfl, again'⟩ := second skipped'
  refine ⟨before ++ after, (List.append_assoc ..).symm, fun behind => ?_⟩
  dsimp only
  rw [List.append_assoc, again]
  exact again' behind

theorem Skips.skipIf (skips : Skips skip?) (isThere : Bool) : Skips (skipIf isThere skip?) := by
  cases isThere
  · exact skips_some
  · exact skips

theorem slice?_zero_eq_some_iff {data field : Bytes} {length : Nat} :
    data.slice? 0 length = some field ↔ field.length = length ∧ ∃ rest, data = field ++ rest := by
  constructor
  · intro stands
    rw [Bytes.slice?, Bytes.slice, List.drop_zero] at stands
    split at stands
    · rename_i size
      cases stands
      exact ⟨size, data.drop length, (List.take_append_drop ..).symm⟩
    · cases stands
  · rintro ⟨size, rest, rfl⟩
    rw [Bytes.slice?, Bytes.slice_zero rest size, if_pos size]

theorem skipText?_append {text : Bytes} (noZero : 0 ∉ text) (rest : Bytes) :
    skipText? (text ++ 0 :: rest) = if maxFieldSize < text.length then none else some rest := by
  rw [skipText?, Bytes.untilZero_append noZero, List.drop_left]

theorem skipText?_eq_some_iff {data rest : Bytes} :
    skipText? data = some rest ↔
      ∃ text, 0 ∉ text ∧ text.length ≤ maxFieldSize ∧ data = text ++ 0 :: rest := by
  constructor
  · intro skipped
    by_cases zero : 0 ∈ data
    · obtain ⟨text, behind, rfl, noZero⟩ := List.eq_append_cons_of_mem zero
      rw [skipText?_append noZero] at skipped
      split at skipped
      · cases skipped
      · rename_i short
        cases skipped
        exact ⟨text, noZero, Nat.le_of_not_lt short, rfl⟩
    · have passes : ∀ byte ∈ data, (byte != 0) = true := fun byte member =>
        bne_iff_ne.mpr (ne_of_mem_of_not_mem member zero)
      have whole : data.untilZero = data := List.takeWhile_eq_self_iff.mpr passes
      rw [skipText?, whole, List.drop_length] at skipped
      cases skipped
  · rintro ⟨text, noZero, short, rfl⟩
    rw [skipText?_append noZero, if_neg (Nat.not_lt.mpr short)]

theorem skips_text : Skips skipText? := by
  intro data rest skipped
  obtain ⟨text, noZero, short, rfl⟩ := skipText?_eq_some_iff.mp skipped
  refine ⟨text ++ [0], by simp, fun behind => ?_⟩
  exact skipText?_eq_some_iff.mpr ⟨text, noZero, short, by simp⟩

theorem skipExtra?_eq_some_iff {data rest : Bytes} :
    skipExtra? data = some rest ↔
      ∃ size field, size.length = 2 ∧ field.length = size.natLE ∧ data = size ++ (field ++ rest) := by
  constructor
  · intro skipped
    obtain ⟨size, stands, skipped⟩ := Option.bind_eq_some_iff.mp skipped
    obtain ⟨two, behind, rfl⟩ := slice?_zero_eq_some_iff.mp stands
    dsimp only at skipped
    split at skipped
    · cases skipped
    · rename_i enough
      cases skipped
      rw [List.length_append] at enough
      refine ⟨size, behind.take size.natLE, two, ?_, ?_⟩
      · rw [List.length_take]
        omega
      · rw [← two, ← List.drop_drop, List.drop_left, List.take_append_drop]
  · rintro ⟨size, field, two, long, rfl⟩
    have stands : (size ++ (field ++ rest)).slice? 0 2 = some size :=
      slice?_zero_eq_some_iff.mpr ⟨two, field ++ rest, rfl⟩
    have enough : ¬ (size ++ (field ++ rest)).length < 2 + size.natLE := by
      rw [List.length_append, List.length_append]
      omega
    rw [skipExtra?, stands, Option.bind_eq_bind, Option.bind_some, if_neg enough, ← two, ← long,
      ← List.drop_drop, List.drop_left, List.drop_left]

theorem skips_extra : Skips skipExtra? := by
  intro data rest skipped
  obtain ⟨size, field, two, long, rfl⟩ := skipExtra?_eq_some_iff.mp skipped
  refine ⟨size ++ field, by simp, fun behind => ?_⟩
  exact skipExtra?_eq_some_iff.mpr ⟨size, field, two, long, by simp⟩

/-- The checksum is that of the bytes in front of it. -/
theorem skipChecksum?_eq_some_iff {before data rest : Bytes} :
    skipChecksum? (before ++ data) data = some rest ↔ ∃ stored, stored.length = 2 ∧
      stored.natLE = (checksum before).toNat % 65536 ∧ data = stored ++ rest := by
  have read : (before ++ data).take ((before ++ data).length - data.length) = before := by
    rw [List.length_append, Nat.add_sub_cancel, List.take_left]
  rw [skipChecksum?, read]
  constructor
  · intro skipped
    obtain ⟨stored, stands, skipped⟩ := Option.bind_eq_some_iff.mp skipped
    obtain ⟨two, behind, rfl⟩ := slice?_zero_eq_some_iff.mp stands
    dsimp only at skipped
    split at skipped
    · rename_i same
      cases skipped
      exact ⟨stored, two, same, by rw [List.drop_left' two]⟩
    · cases skipped
  · rintro ⟨stored, two, same, rfl⟩
    have stands : (stored ++ rest).slice? 0 2 = some stored :=
      slice?_zero_eq_some_iff.mpr ⟨two, rest, rfl⟩
    rw [stands, Option.bind_eq_bind, Option.bind_some, if_pos same, List.drop_left' two]

theorem skips_checksum (before : Bytes) :
    Skips fun data => skipChecksum? (before ++ data) data := by
  intro data rest skipped
  obtain ⟨stored, two, same, rfl⟩ := skipChecksum?_eq_some_iff.mp skipped
  exact ⟨stored, rfl, fun behind => skipChecksum?_eq_some_iff.mpr ⟨stored, two, same, rfl⟩⟩

/-- The rest after the parts between the first ten bytes of a header and its checksum. -/
def skipFields? (flags : Nat) (data : Bytes) : Option Bytes := do
  let rest ← skipIf (flags / 4 % 2 = 1) skipExtra? data
  let rest ← skipIf (flags / 8 % 2 = 1) skipText? rest
  skipIf (flags / 16 % 2 = 1) skipText? rest

theorem skips_fields (flags : Nat) : Skips (skipFields? flags) :=
  (skips_extra.skipIf _).bind ((skips_text.skipIf _).bind (skips_text.skipIf _))

/-- A header is its first ten bytes, the parts that their flags tell of, and the checksum of all
this if they tell of one. -/
theorem skipHeader?_eq {start : Bytes} (ten : start.length = 10) (data : Bytes) :
    skipHeader? (start ++ data) =
      if start.take 2 ≠ magic ∨ start.getD 2 0 ≠ 8 ∨ 32 ≤ (start.getD 3 0).toNat then none
      else skipFields? (start.getD 3 0).toNat data >>= fun rest =>
        skipIf ((start.getD 3 0).toNat / 2 % 2 = 1) (skipChecksum? (start ++ data)) rest := by
  have stands : (start ++ data).slice? 0 10 = some start :=
    slice?_zero_eq_some_iff.mpr ⟨ten, data, rfl⟩
  rw [skipHeader?, stands, Option.bind_eq_bind, Option.bind_some, List.drop_left' ten]
  by_cases unsound : start.take 2 ≠ magic ∨ start.getD 2 0 ≠ 8 ∨ 32 ≤ (start.getD 3 0).toNat
  · simp only [if_pos unsound]
    rfl
  · simp only [if_neg unsound, skipFields?, Option.bind_eq_bind, Option.bind_assoc]

theorem skips_header : Skips skipHeader? := by
  intro data body skipped
  obtain ⟨start, stands, -⟩ := Option.bind_eq_some_iff.mp skipped
  obtain ⟨ten, fields, rfl⟩ := slice?_zero_eq_some_iff.mp stands
  rw [skipHeader?_eq ten] at skipped
  split at skipped
  · cases skipped
  · rename_i sound
    obtain ⟨rest, skipped, skipped'⟩ := Option.bind_eq_some_iff.mp skipped
    obtain ⟨fields, rfl, again⟩ := skips_fields _ skipped
    rw [← List.append_assoc] at skipped'
    obtain ⟨sum, rfl, again'⟩ := (skips_checksum (start ++ fields)).skipIf _ skipped'
    refine ⟨start ++ (fields ++ sum), by simp, fun behind => ?_⟩
    rw [List.append_assoc, List.append_assoc, skipHeader?_eq ten, if_neg sound, again,
      Option.bind_eq_bind, Option.bind_some, ← List.append_assoc]
    exact again' behind

end Skipping

/-- The bytes are one member with this content: a header, a stream that is inflated to the content,
and a trailer that agrees with it. -/
inductive IsMember : Bytes → Bytes → Prop
  | intro {header stream trailer content : Bytes} (skipped : skipHeader? header = some [])
      (inflated : inflate stream = (content, .ok [])) (size : trailer.length = 8)
      (agrees : trailerAgrees content trailer = true) :
      IsMember (header ++ (stream ++ trailer)) content

/-- What a file is unpacked to that begins with these bytes: the contents of its members, and
what the part behind them gives that is no whole member. The size is that of the whole file. -/
inductive Unpacks (fileSize : Nat) : Bytes → ByteStream → Prop
  | last {member content : Bytes} (whole : IsMember member content) :
      Unpacks fileSize member (.ofBytes content)
  | next {member content rest : Bytes} {stream : ByteStream} (whole : IsMember member content)
      (more : rest ≠ []) (unpacked : Unpacks fileSize rest stream) :
      Unpacks fileSize (member ++ rest) ⟨content ++ stream.content, stream.isWhole⟩
  | broken {data content : Bytes} (read : readMember fileSize data = (content, none)) :
      Unpacks fileSize data ⟨content, false⟩

section Members

variable {fileSize : Nat} {data member content rest : Bytes} {stream : ByteStream}

theorem IsMember.ne_nil (whole : IsMember member content) : member ≠ [] := by
  obtain ⟨-, -, size, -⟩ := whole
  intro empty
  have long := congrArg List.length empty
  rw [List.length_append, List.length_append, size, List.length_nil] at long
  omega

/-- A member is read whatever stands behind it. -/
theorem IsMember.readMember (whole : IsMember member content) (fileSize : Nat) (rest : Bytes) :
    readMember fileSize (member ++ rest) = (content, some rest) := by
  obtain @⟨header, stream, trailer, content, skipped, inflated, size, agrees⟩ := whole
  obtain ⟨_, split, skips⟩ := skips_header skipped
  obtain rfl := split.trans (List.append_nil _)
  obtain ⟨_, split, -, inflates⟩ := exists_of_inflate inflated
  obtain rfl := split.trans (List.append_nil _)
  have stands : (trailer ++ rest).slice? 0 8 = some trailer :=
    slice?_zero_eq_some_iff.mpr ⟨size, rest, rfl⟩
  rw [List.append_assoc, List.append_assoc, Gzip.readMember, skips]
  simp only [inflates, stands, if_pos agrees, List.drop_left' size]

/-- The reader gets over whole members alone. -/
theorem readMember_eq_some_iff : readMember fileSize data = (content, some rest) ↔
    ∃ member, IsMember member content ∧ data = member ++ rest := by
  constructor
  · intro read
    unfold readMember at read
    split at read
    · cases read
    · rename_i body skipped
      split at read
      · cases read
      · cases read
      · rename_i content' behind inflated
        split at read
        · cases read
        · rename_i trailer stands
          split at read
          · rename_i agrees
            cases read
            obtain ⟨header, rfl, skips⟩ := skips_header skipped
            obtain ⟨stream, rfl, -, inflates⟩ := exists_of_inflate inflated
            obtain ⟨size, rest, rfl⟩ := slice?_zero_eq_some_iff.mp stands
            have skipped' := skips []
            have inflated' := inflates []
            rw [List.append_nil] at skipped' inflated'
            refine ⟨header ++ (stream ++ trailer), ⟨skipped', inflated', size, agrees⟩, ?_⟩
            rw [List.drop_left' size, List.append_assoc, List.append_assoc]
          · cases read
  · rintro ⟨member, whole, rfl⟩
    exact whole.readMember fileSize rest

theorem exists_unpacks (fileSize : Nat) (data : Bytes) :
    ∃ stream, Unpacks fileSize data stream := by
  induction long : data.length using Nat.strongRecOn generalizing data with
  | ind length ih =>
    rcases read : readMember fileSize data with ⟨content, _ | rest⟩
    · exact ⟨_, .broken read⟩
    · obtain ⟨member, whole, rfl⟩ := readMember_eq_some_iff.mp read
      by_cases ended : rest = []
      · rw [ended, List.append_nil]
        exact ⟨_, .last whole⟩
      · have positive := List.length_pos_iff.mpr whole.ne_nil
        rw [List.length_append] at long
        obtain ⟨stream, unpacked⟩ := ih rest.length (by omega) rest rfl
        exact ⟨_, .next whole ended unpacked⟩

/-- The reader unpacks the file after what it has read. There is fuel enough, as each member is at
least one byte. -/
theorem Unpacks.readMembers (unpacked : Unpacks fileSize data stream) {fuel : Nat}
    (enough : data.length < fuel) (read : List Bytes) : readMembers fileSize fuel read data =
      ⟨read.reverse.flatten ++ stream.content, stream.isWhole⟩ := by
  induction unpacked generalizing fuel read with
  | @last member content whole =>
    obtain ⟨fuel, rfl⟩ : ∃ less, fuel = less + 1 := ⟨fuel - 1, by omega⟩
    have found := whole.readMember fileSize []
    rw [List.append_nil] at found
    simp [Gzip.readMembers, found, ByteStream.ofBytes]
  | @next member content rest stream whole more _ ih =>
    have positive := List.length_pos_iff.mpr whole.ne_nil
    rw [List.length_append] at enough
    obtain ⟨fuel, rfl⟩ : ∃ less, fuel = less + 1 := ⟨fuel - 1, by omega⟩
    have found := whole.readMember fileSize rest
    obtain ⟨byte, rest, rfl⟩ := List.exists_cons_of_ne_nil more
    rw [Gzip.readMembers, found]
    dsimp only
    rw [ih (by omega)]
    simp
  | @broken data content found =>
    obtain ⟨fuel, rfl⟩ : ∃ less, fuel = less + 1 := ⟨fuel - 1, by omega⟩
    simp [Gzip.readMembers, found]

theorem unpacks_iff : Unpacks data.length data stream ↔ decompress data = stream := by
  have reads {stream : ByteStream} (unpacked : Unpacks data.length data stream) :
      decompress data = stream :=
    unpacked.readMembers (Nat.lt_succ_self data.length) []
  constructor
  · exact reads
  · rintro rfl
    obtain ⟨stream, unpacked⟩ := exists_unpacks data.length data
    rwa [reads unpacked]

/-- A file is unpacked to its end exactly where it is members alone, at least one of them. -/
theorem unpacks_ofBytes_iff : Unpacks fileSize data (.ofBytes content) ↔
    ∃ members, members ≠ [] ∧ (∀ pair ∈ members, IsMember pair.1 pair.2) ∧
      data = (members.map Prod.fst).flatten ∧ content = (members.map Prod.snd).flatten := by
  constructor
  · intro unpacked
    generalize ends : ByteStream.ofBytes content = stream at unpacked
    induction unpacked generalizing content with
    | @last member content' whole =>
      cases ends
      exact ⟨[(member, content')], by simp, by simpa using whole, by simp, by simp⟩
    | @next member content' rest stream whole more _ ih =>
      obtain ⟨behind, isWhole⟩ := stream
      cases ends
      obtain ⟨members, -, all, split, joined⟩ := ih rfl
      refine ⟨(member, content') :: members, by simp, ?_, ?_, ?_⟩
      · exact List.forall_mem_cons.mpr ⟨whole, all⟩
      · rw [List.map_cons, List.flatten_cons, split]
      · rw [List.map_cons, List.flatten_cons, joined]
    | broken => cases ends
  · rintro ⟨members, someMembers, all, rfl, rfl⟩
    induction members with
    | nil => exact absurd rfl someMembers
    | cons pair members ih =>
      obtain ⟨whole, others⟩ := List.forall_mem_cons.mp all
      simp only [List.map_cons, List.flatten_cons]
      cases members with
      | nil => simpa using Unpacks.last whole
      | cons pair' members =>
        have more : ((pair' :: members).map Prod.fst).flatten ≠ [] := by
          have positive := List.length_pos_iff.mpr (others pair' (List.mem_cons_self ..)).ne_nil
          rw [List.map_cons, List.flatten_cons, ← List.length_pos_iff, List.length_append]
          omega
        exact .next whole more (ih (List.cons_ne_nil _ _) others)

end Members

end ImageAudit.Gzip
