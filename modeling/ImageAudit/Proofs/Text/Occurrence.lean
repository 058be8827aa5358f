import ImageAudit.Text

/-! # Occurrences as infixes

The search for a piece walks along the text and stops at the first place where the piece begins.
It succeeds exactly when the piece is a contiguous part of the text, wherever that part lies.
-/

namespace ImageAudit.Text

private theorem isSome_afterOccurrence? (piece text : List Char) :
    (afterOccurrence? piece text).isSome = true ↔ piece <:+: text := by
  induction text with
  | nil =>
    rw [List.infix_nil]
    by_cases empty : piece = [] <;> simp [afterOccurrence?, empty]
  | cons head rest ih =>
    rw [List.infix_cons_iff, ← ih, ← List.isPrefixOf_iff_prefix]
    by_cases here : piece.isPrefixOf (head :: rest) = true <;> simp [afterOccurrence?, here]

/-- A text contains a piece exactly when the piece is a contiguous part of it. -/
theorem contains_iff (text piece : String) :
    contains text piece = true ↔ piece.toList <:+: text.toList :=
  isSome_afterOccurrence? piece.toList text.toList

end ImageAudit.Text
