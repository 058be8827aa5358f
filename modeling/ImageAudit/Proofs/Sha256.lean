import ImageAudit.Sha256

/-! # Schedules with the last word first

The next word of a schedule is made of words that are counted back from its end. With the last word
first they stand at fixed places, and a further word is put in front; a digest is evaluated in this
form.
-/

namespace ImageAudit.Sha256

/-- The next word of a schedule whose words so far are `recent`, the last one first. -/
def wordAfter (recent : List UInt32) : UInt32 :=
  let at' (back : Nat) := recent.getD (back - 1) (recent.getLastD 0)
  let s0 := rotate (at' 15) 7 ^^^ rotate (at' 15) 18 ^^^ (at' 15 >>> 3)
  let s1 := rotate (at' 2) 17 ^^^ rotate (at' 2) 19 ^^^ (at' 2 >>> 10)
  at' 16 + s0 + at' 7 + s1

/-- The 64 words over which a block is spread. -/
def wordsOf (block : Bytes) : List UInt32 :=
  let first := (Bytes.chunks 4 block).toList.map fun word => UInt32.ofNat word.natBE
  ((List.range 48).foldl (fun recent _ => wordAfter recent :: recent) first.reverse).reverse

theorem nextWord_reverse (recent : List UInt32) :
    nextWord recent.reverse.toArray = wordAfter recent := by
  have counted (back : Nat) (positive : 0 < back) :
      recent.reverse.toArray.getD (recent.reverse.toArray.size - back) 0 =
        recent.getD (back - 1) (recent.getLastD 0) := by
    rw [Array.getD_eq_getD_getElem?, List.getElem?_toArray, List.size_toArray, List.length_reverse,
      List.getD_eq_getElem?_getD]
    by_cases inside : back ≤ recent.length
    · have mirrored : recent.length - 1 - (recent.length - back) = back - 1 := by omega
      rw [List.getElem?_reverse (by omega), mirrored, List.getElem?_eq_getElem (by omega)]
      rfl
    · have none : recent[back - 1]? = none := List.getElem?_eq_none (by omega)
      have front : recent.length - back = 0 := by omega
      rw [front, none, Option.getD_none, ← List.head?_eq_getElem?, List.head?_reverse,
        List.getLastD_eq_getLast?]
  simp only [nextWord, wordAfter, counted 15 (by decide), counted 2 (by decide),
    counted 16 (by decide), counted 7 (by decide)]

theorem toList_schedule (block : Bytes) : (schedule block).toList = wordsOf block := by
  have grown (steps : List Nat) (recent : List UInt32) :
      steps.foldl (fun words _ => words.push (nextWord words)) recent.reverse.toArray =
        (steps.foldl (fun recent _ => wordAfter recent :: recent) recent).reverse.toArray := by
    induction steps generalizing recent with
    | nil => rfl
    | cons step steps ih =>
      rw [List.foldl_cons, List.foldl_cons, nextWord_reverse, ← ih, List.reverse_cons]
      simp
  generalize listed : Bytes.chunks 4 block = pieces
  have first : pieces.map (fun word => UInt32.ofNat word.natBE) =
      (pieces.toList.map fun word => UInt32.ofNat word.natBE).reverse.reverse.toArray := by
    rw [List.reverse_reverse, ← Array.toList_map, Array.toArray_toList]
  rw [schedule, wordsOf, listed, first, grown]

/-- A digest by schedules with the last word first. -/
theorem digest_eq (message : Bytes) :
    digest message = ((Bytes.chunks 64 (padded message)).foldl (fun s block =>
      s.add <| ((wordsOf block).zip roundConstants).foldl
        (fun s (word, constant) => round s word constant) s) State.initial).bytes := by
  simp only [digest, ← toList_schedule]
  rfl

end ImageAudit.Sha256
