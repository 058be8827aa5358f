import ImageAudit.OsRelease.DistTag
import Mathlib.Data.List.Infix
import Mathlib.Data.List.TakeWhile
import Mathlib.Tactic.ByContra

/-! # The leftmost declaration of a platform

A text is searched line by line for a declaration of its tag. No declaration has a character that
ends a line, so the lines have just the declarations of the text, in the same order, and what is
found is the leftmost declaration in the whole text. A place that holds only the beginning of a
declaration is passed over.
-/

namespace ImageAudit.DistTag

/-- What a declaration has between the marker and the quote: letters and digits, at least one. -/
structure IsTag (tag : List Char) : Prop where
  notEmpty : tag ≠ []
  alphanumeric : ∀ c ∈ tag, Text.isAsciiAlnum c = true

def declaration (tag : List Char) : List Char := marker ++ (tag ++ ['"'])

section Place

variable {text tag : List Char}

/-- Behind a marker a tag is found where letters and digits, at least one, are followed by a
quote. -/
private theorem declaredAt?_marker_append (value : List Char) :
    declaredAt? (marker ++ value) =
      if value.takeWhile Text.isAsciiAlnum ≠ [] ∧
          (value.dropWhile Text.isAsciiAlnum).head? = some '"' then
        some (value.takeWhile Text.isAsciiAlnum)
      else none := by
  have whole := List.takeWhile_append_dropWhile (p := Text.isAsciiAlnum) (l := value)
  have behind : value.drop (value.takeWhile Text.isAsciiAlnum).length =
      value.dropWhile Text.isAsciiAlnum := by
    calc
      _ = (value.takeWhile Text.isAsciiAlnum ++ value.dropWhile Text.isAsciiAlnum).drop
          (value.takeWhile Text.isAsciiAlnum).length := by rw [whole]
      _ = _ := List.drop_left
  rw [declaredAt?, if_pos (List.isPrefixOf_iff_prefix.mpr (List.prefix_append ..)), List.drop_left]
  dsimp only
  rw [behind]

/-- What is found at a place is the tag of the declaration that begins there. -/
theorem declaredAt?_eq_some_iff :
    declaredAt? text = some tag ↔ IsTag tag ∧ declaration tag <+: text := by
  constructor
  · intro found
    have marks : marker <+: text := by
      by_contra other
      rw [declaredAt?, if_neg fun begins => other (List.isPrefixOf_iff_prefix.mp begins)] at found
      cases found
    obtain ⟨value, rfl⟩ := marks
    rw [declaredAt?_marker_append, Option.ite_none_right_eq_some] at found
    obtain ⟨⟨notEmpty, quoted⟩, same⟩ := found
    obtain rfl := Option.some.inj same
    obtain ⟨after, behind⟩ := List.head?_eq_some_iff.mp quoted
    have whole := List.takeWhile_append_dropWhile (p := Text.isAsciiAlnum) (l := value)
    refine ⟨⟨notEmpty, fun c member => ?_⟩, after, ?_⟩
    · exact List.mem_takeWhile_imp member
    · rw [behind] at whole
      rw [declaration, List.append_assoc, List.append_assoc, List.singleton_append, whole]
  · rintro ⟨isTag, after, rfl⟩
    have ends : Text.isAsciiAlnum '"' ≠ true := by decide
    have value : declaration tag ++ after = marker ++ (tag ++ '"' :: after) := by
      simp [declaration]
    rw [value, declaredAt?_marker_append, List.takeWhile_append_of_pos isTag.alphanumeric,
      List.dropWhile_append_of_pos isTag.alphanumeric, List.takeWhile_cons_of_neg ends,
      List.dropWhile_cons_of_neg ends, List.append_nil]
    exact if_pos ⟨isTag.notEmpty, rfl⟩

end Place

/-- The tags of the declarations in a text, in the order of their places. -/
def declarations (text : List Char) : List (List Char) := text.tails.filterMap declaredAt?

section Lines

/-- A character that no declaration has. -/
structure Separates (c : Char) : Prop where
  noMark : c ∉ marker
  noTag : Text.isAsciiAlnum c = false
  noQuote : c ≠ '"'

theorem separates_lineFeed : Separates '\n' := ⟨by decide, by decide, by decide⟩

theorem separates_return : Separates '\r' := ⟨by decide, by decide, by decide⟩

theorem declarations_nil : declarations [] = [] := by decide

theorem declarations_cons (c : Char) (text : List Char) :
    declarations (c :: text) = (declaredAt? (c :: text)).toList ++ declarations text := by
  rw [declarations, List.tails_cons, List.filterMap_cons]
  cases declaredAt? (c :: text) <;> rfl

variable {c : Char} (separates : Separates c)
include separates

theorem Separates.not_mem_declaration {tag : List Char} (isTag : IsTag tag) :
    c ∉ declaration tag := by
  simp only [declaration, List.mem_append, List.mem_singleton, not_or]
  refine ⟨separates.noMark, ?_, separates.noQuote⟩
  intro member
  exact Bool.false_ne_true (separates.noTag.symm.trans (isTag.alphanumeric c member))

private theorem prefix_of_not_mem {piece text after : List Char} (absent : c ∉ piece)
    (begins : piece <+: text ++ c :: after) : piece <+: text := by
  have within : text <+: text ++ c :: after := List.prefix_append ..
  rcases List.prefix_or_prefix_of_prefix begins within with shorter | ⟨rest, rfl⟩
  · exact shorter
  · rw [List.prefix_append_right_inj] at begins
    cases rest with
    | nil => rw [List.append_nil]
    | cons first rest =>
      obtain ⟨rfl, -⟩ := List.cons_prefix_cons.mp begins
      exact absurd (List.mem_append_right _ (List.mem_cons_self ..)) absent

/-- A declaration that begins before a separator ends before it. -/
theorem Separates.declaredAt?_append (text after : List Char) :
    declaredAt? (text ++ c :: after) = declaredAt? text := by
  ext tag
  rw [declaredAt?_eq_some_iff, declaredAt?_eq_some_iff]
  constructor
  · rintro ⟨isTag, begins⟩
    exact ⟨isTag, prefix_of_not_mem separates (separates.not_mem_declaration isTag) begins⟩
  · rintro ⟨isTag, begins⟩
    exact ⟨isTag, begins.trans (List.prefix_append ..)⟩

/-- A separator keeps the declarations before it apart from those behind it. -/
theorem Separates.declarations_append (text after : List Char) :
    declarations (text ++ c :: after) = declarations text ++ declarations after := by
  induction text with
  | nil =>
    have nothing : declaredAt? (c :: after) = none := separates.declaredAt?_append [] after
    rw [List.nil_append, declarations_cons, nothing, declarations_nil]
    rfl
  | cons first text ih =>
    have same := separates.declaredAt?_append (first :: text) after
    rw [List.cons_append] at same ⊢
    rw [declarations_cons, same, ih, declarations_cons, List.append_assoc]

theorem Separates.declarations_intercalate {pieces : List (List Char)} (some : pieces ≠ []) :
    declarations ([c].intercalate pieces) = pieces.flatMap declarations := by
  induction pieces with
  | nil => exact absurd rfl some
  | cons first pieces ih =>
    cases pieces with
    | nil => simp
    | cons second pieces =>
      rw [List.intercalate_cons_cons, List.append_assoc, List.singleton_append,
        separates.declarations_append, ih (List.cons_ne_nil _ _)]
      rfl

end Lines

section Lines

theorem declarations_dropReturn (line : List Char) :
    declarations (Text.dropReturn line) = declarations line := by
  unfold Text.dropReturn
  split
  · rename_i ends
    obtain ⟨before, rfl⟩ := List.getLast?_eq_some_iff.mp ends
    rw [List.dropLast_concat, separates_return.declarations_append, declarations_nil,
      List.append_nil]
  · rfl

/-- The lines have the declarations of the text, in the same order. -/
theorem flatMap_declarations_lines (text : List Char) :
    (Text.lines text).flatMap declarations = declarations text := by
  have some := List.splitOn_ne_nil '\n' text
  have joined : ['\n'].intercalate (text.splitOn '\n') = text := List.intercalate_splitOn '\n'
  have last : (if (text.splitOn '\n').getLastD [] = [] then []
      else [(text.splitOn '\n').getLastD []]).flatMap declarations =
      declarations ((text.splitOn '\n').getLastD []) := by
    split
    · rename_i empty
      rw [empty, declarations_nil]
      rfl
    · exact List.flatMap_singleton ..
  have all : text.splitOn '\n' =
      (text.splitOn '\n').dropLast ++ [(text.splitOn '\n').getLastD []] := by
    rw [List.getLastD_eq_getLast?, List.getLast?_eq_some_getLast some, Option.getD_some,
      List.dropLast_append_getLast]
  calc
    (Text.lines text).flatMap declarations
      = (text.splitOn '\n').dropLast.flatMap declarations ++
          declarations ((text.splitOn '\n').getLastD []) := by
        rw [Text.lines, List.flatMap_append, last, List.flatMap_map]
        simp only [declarations_dropReturn]
    _ = (text.splitOn '\n').flatMap declarations := by
        conv_rhs => rw [all, List.flatMap_append, List.flatMap_singleton]
    _ = declarations text := by
        rw [← separates_lineFeed.declarations_intercalate some, joined]

end Lines

section Search

theorem declaredIn?_eq (text : List Char) : declaredIn? text = (declarations text).head? := by
  induction text with
  | nil => rfl
  | cons c text ih =>
    rw [declaredIn?, declarations_cons, ih, List.head?_append, Option.head?_toList]

theorem findSome?_declaredIn? (text : List Char) :
    (Text.lines text).findSome? declaredIn? = (declarations text).head? := by
  rw [← flatMap_declarations_lines, List.head?_flatMap]
  exact congrArg (List.findSome? · _) (funext declaredIn?_eq)

/-- A declaration of the tag stands in the text behind what comes before. -/
def DeclaresAt (text before tag : List Char) : Prop :=
  IsTag tag ∧ before ++ declaration tag <+: text

theorem declaresAt_nil_iff {text tag : List Char} :
    DeclaresAt text [] tag ↔ declaredAt? text = some tag :=
  declaredAt?_eq_some_iff.symm

theorem declaresAt_cons_iff {c d : Char} {text before tag : List Char} :
    DeclaresAt (c :: text) (d :: before) tag ↔ d = c ∧ DeclaresAt text before tag := by
  rw [DeclaresAt, DeclaresAt, List.cons_append, List.cons_prefix_cons, and_left_comm]

theorem mem_declarations_iff {text tag : List Char} :
    tag ∈ declarations text ↔ ∃ before, DeclaresAt text before tag := by
  simp only [declarations, List.mem_filterMap, List.mem_tails, declaredAt?_eq_some_iff]
  constructor
  · rintro ⟨_, ⟨before, rfl⟩, isTag, begins⟩
    exact ⟨before, isTag, (List.prefix_append_right_inj before).mpr begins⟩
  · rintro ⟨before, isTag, after, rfl⟩
    rw [List.append_assoc]
    exact ⟨_, List.suffix_append .., isTag, List.prefix_append ..⟩

/-- What is found first is the tag of the leftmost declaration. -/
theorem head?_declarations_eq_some_iff {text tag : List Char} :
    (declarations text).head? = some tag ↔ ∃ before, DeclaresAt text before tag ∧
      ∀ before' tag', DeclaresAt text before' tag' → before.length ≤ before'.length := by
  induction text with
  | nil =>
    constructor
    · intro found
      cases found
    · rintro ⟨before, ⟨isTag, begins⟩, -⟩
      have nothing := List.prefix_nil.mp begins
      simp [declaration] at nothing
  | cons c text ih =>
    rw [declarations_cons, List.head?_append, Option.head?_toList]
    cases found : declaredAt? (c :: text) with
    | some first =>
      have here : DeclaresAt (c :: text) [] first := declaresAt_nil_iff.mpr found
      rw [Option.some_or, ← found]
      constructor
      · intro same
        exact ⟨[], declaresAt_nil_iff.mpr same, fun _ _ _ => Nat.zero_le _⟩
      · rintro ⟨before, declares, least⟩
        obtain rfl := List.length_eq_zero_iff.mp (Nat.le_zero.mp (least [] first here))
        exact declaresAt_nil_iff.mp declares
    | none =>
      have notHere (tag : List Char) : ¬ DeclaresAt (c :: text) [] tag := by
        rw [declaresAt_nil_iff, found]
        exact nofun
      rw [Option.none_or, ih]
      constructor
      · rintro ⟨before, declares, least⟩
        refine ⟨c :: before, declaresAt_cons_iff.mpr ⟨rfl, declares⟩, ?_⟩
        intro before' tag' declares'
        cases before' with
        | nil => exact absurd declares' (notHere tag')
        | cons d before' =>
          exact Nat.succ_le_succ (least before' tag' (declaresAt_cons_iff.mp declares').2)
      · rintro ⟨before, declares, least⟩
        cases before with
        | nil => exact absurd declares (notHere tag)
        | cons d before =>
          obtain ⟨rfl, behind⟩ := declaresAt_cons_iff.mp declares
          refine ⟨before, behind, fun before' tag' declares' => ?_⟩
          exact Nat.le_of_succ_le_succ
            (least (d :: before') tag' (declaresAt_cons_iff.mpr ⟨rfl, declares'⟩))

end Search

section Content

variable {content before tag : String}

/-- The content declares the platform with the tag, behind what comes before. -/
structure Declares (content before tag : String) : Prop where
  stands : ∃ after, content = before ++ "PLATFORM_ID=\"platform:" ++ tag ++ "\"" ++ after
  notEmpty : tag ≠ ""
  alphanumeric : ∀ c ∈ tag.toList, c.isAlphanum = true

theorem isAsciiAlnum_eq (c : Char) : Text.isAsciiAlnum c = c.isAlphanum := by
  have upper : c.isUpper = ('A' ≤ c && c ≤ 'Z') := Bool.decide_and ..
  have lower : c.isLower = ('a' ≤ c && c ≤ 'z') := rfl
  have digit : c.isDigit = ('0' ≤ c && c ≤ '9') := rfl
  have all : c.isAlphanum = ((c.isUpper || c.isLower) || c.isDigit) := rfl
  rw [Text.isAsciiAlnum, all, upper, lower, digit, Bool.or_comm ('a' ≤ c && c ≤ 'z')]

theorem declares_iff :
    Declares content before tag ↔ DeclaresAt content.toList before.toList tag.toList := by
  have shape (after : String) :
      (before ++ "PLATFORM_ID=\"platform:" ++ tag ++ "\"" ++ after).toList =
        before.toList ++ declaration tag.toList ++ after.toList := by
    rw [String.toList_append, String.toList_append, String.toList_append, String.toList_append,
      declaration]
    simp only [List.append_assoc]
    rfl
  constructor
  · rintro ⟨⟨after, rfl⟩, notEmpty, alphanumeric⟩
    refine ⟨⟨?_, ?_⟩, after.toList, (shape after).symm⟩
    · rwa [Ne, String.toList_eq_nil_iff]
    · intro c member
      rw [isAsciiAlnum_eq]
      exact alphanumeric c member
  · rintro ⟨isTag, after, stands⟩
    refine ⟨⟨String.ofList after, ?_⟩, ?_, ?_⟩
    · rw [← String.toList_inj, shape, String.toList_ofList, stands]
    · rintro rfl
      exact isTag.notEmpty rfl
    · intro c member
      rw [← isAsciiAlnum_eq]
      exact isTag.alphanumeric c member

theorem ofOsRelease_eq_known_iff :
    ofOsRelease content = known tag ↔ (declarations content.toList).head? = some tag.toList := by
  unfold ofOsRelease
  rw [findSome?_declaredIn?]
  cases (declarations content.toList).head? with
  | none => simp
  | some first => simp [← String.toList_inj]

theorem ofOsRelease_eq_unknown_iff :
    ofOsRelease content = unknown ↔ declarations content.toList = [] := by
  unfold ofOsRelease
  rw [findSome?_declaredIn?]
  cases declarations content.toList <;> simp

end Content

/-- The tag of a content is that of its leftmost declaration, wherever it stands, and unknown just
where there is none. The lines have the declarations of the whole, in the same order. -/
theorem ofOsRelease_leftmost (content : String) :
    (∀ tag, ofOsRelease content = known tag ↔
      ∃ before, Declares content before tag ∧
        ∀ before' tag', Declares content before' tag' → before.length ≤ before'.length) ∧
    (ofOsRelease content = unknown ↔ ∀ before tag, ¬ Declares content before tag) ∧
    (∀ tag, tag.toList ∈ declarations content.toList ↔ ∃ before, Declares content before tag) ∧
    (Text.lines content.toList).flatMap declarations = declarations content.toList := by
  have texts : Function.Surjective String.toList := fun text => ⟨.ofList text, String.toList_ofList⟩
  refine ⟨fun tag => ?_, ?_, fun tag => ?_, flatMap_declarations_lines content.toList⟩
  · rw [ofOsRelease_eq_known_iff, head?_declarations_eq_some_iff, texts.exists]
    simp only [texts.forall, ← declares_iff, String.length_toList]
  · rw [ofOsRelease_eq_unknown_iff, List.eq_nil_iff_forall_not_mem, texts.forall]
    simp only [mem_declarations_iff, texts.exists, ← declares_iff, not_exists]
    exact forall_comm
  · rw [mem_declarations_iff, texts.exists]
    simp only [← declares_iff]

/-- A declaration may stand in another one that is broken off. -/
example : ofOsRelease "PLATFORM_ID=\"platform:PLATFORM_ID=\"platform:el9\"\n" = known "el9" := by
  decide +kernel

end ImageAudit.DistTag
