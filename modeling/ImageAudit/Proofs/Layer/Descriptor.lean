import ImageAudit.Layer.Descriptor
import ImageAudit.Proofs.Path

/-! # What the name of a layer tells

The position stands in front of the first dash and can be read off its digits, and all that follows
is the digest. So the name tells both, and layers at different positions have different names. A
digest without a slash makes the name a proper one: it names something in a directory, whatever else
the digest holds.
-/

namespace ImageAudit

theorem Text.isDigit_of_mem_twoDigits {n : Nat} {c : Char} (member : c ∈ (twoDigits n).toList) :
    c.isDigit = true := by
  have digit {c : Char} (member : c ∈ (toString n).toList) : c.isDigit = true := by
    change c ∈ (Nat.repr n).toList at member
    rw [Nat.toList_repr] at member
    exact Nat.isDigit_of_mem_toDigits (by decide) (by decide) member
  unfold twoDigits at member
  split at member
  · rw [String.toList_append, List.mem_append] at member
    rcases member with zero | rest
    · obtain rfl : c = '0' := by simpa using zero
      rfl
    · exact digit rest
  · exact digit member

/-- The number is read off its digits; a zero in front counts for nothing. -/
theorem Text.ofDigitChars_twoDigits (n : Nat) : Nat.ofDigitChars 10 (twoDigits n).toList 0 = n := by
  have read : Nat.ofDigitChars 10 (toString n).toList 0 = n := by
    change Nat.ofDigitChars 10 (Nat.repr n).toList 0 = n
    rw [Nat.toList_repr, Nat.ofDigitChars_toDigits (by decide) (by decide)]
  unfold twoDigits
  split
  · rw [String.toList_append]
    exact Nat.ofDigitChars_cons.trans read
  · exact read

namespace LayerDescriptor

theorem toList_id (layer : LayerDescriptor) :
    layer.id.toList = (Text.twoDigits layer.index).toList ++ '-' :: layer.digest.toList := by
  rw [id, String.toList_append, String.toList_append, List.append_assoc]
  rfl

/-- What stands before the first dash are the digits of the position. -/
theorem takeWhile_id (layer : LayerDescriptor) :
    layer.id.toList.takeWhile (· != '-') = (Text.twoDigits layer.index).toList := by
  have digits : ∀ c ∈ (Text.twoDigits layer.index).toList, (c != '-') = true := by
    intro c member
    rw [bne_iff_ne]
    rintro rfl
    exact absurd (Text.isDigit_of_mem_twoDigits member) (by decide)
  rw [toList_id, List.takeWhile_append_of_pos digits, List.takeWhile_cons_of_neg (by decide),
    List.append_nil]

theorem index_eq_of_id_eq {layer other : LayerDescriptor} (same : layer.id = other.id) :
    layer.index = other.index := by
  have digits : (Text.twoDigits layer.index).toList = (Text.twoDigits other.index).toList := by
    rw [← takeWhile_id, ← takeWhile_id, same]
  rw [← Text.ofDigitChars_twoDigits layer.index, digits, Text.ofDigitChars_twoDigits]

/-- Behind the position and the dash the digest is left, whatever dashes it has of its own. -/
theorem id_eq_iff {layer other : LayerDescriptor} :
    layer.id = other.id ↔ layer.index = other.index ∧ layer.digest = other.digest := by
  constructor
  · intro same
    have index := index_eq_of_id_eq same
    have texts := congrArg String.toList same
    rw [toList_id, toList_id, index, List.append_cancel_left_eq, List.cons_inj_right,
      String.toList_inj] at texts
    exact ⟨index, texts⟩
  · rintro ⟨index, digest⟩
    rw [id, id, index, digest]

/-- Where the digest holds no slash, the layer has a name that can stand in a directory. -/
theorem isName_id {layer : LayerDescriptor} (noSlash : '/' ∉ layer.digest.toList) :
    Path.IsName layer.id.toList := by
  have dash : '-' ∈ layer.id.toList := by simp [toList_id]
  refine ⟨?_, ?_, ?_, ?_⟩
  · rw [toList_id, List.mem_append, List.mem_cons]
    rintro (digit | same | rest)
    · exact absurd (Text.isDigit_of_mem_twoDigits digit) (by decide)
    · cases same
    · exact noSlash rest
  · exact List.ne_nil_of_mem dash
  · intro same
    rw [same] at dash
    exact absurd dash (by decide)
  · intro same
    rw [same] at dash
    exact absurd dash (by decide)

end LayerDescriptor

end ImageAudit
