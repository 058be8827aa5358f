import ImageAudit.Path
import Mathlib.Tactic.SplitIfs

/-! # Resolving paths

A path is resolved segment by segment, so what stands before a slash is resolved first, and what
stands behind it is resolved against that. Slashes and `./` in front change nothing. A path that
ends in a proper name resolves to its directory with that name below it, and the name can be read
off its normal form.
-/

namespace ImageAudit.Path

/-- The parts of a text do not have what it is split at. -/
theorem not_mem_of_mem_splitOn {α : Type} [BEq α] [LawfulBEq α] {separator : α}
    {text part : List α} (member : part ∈ text.splitOn separator) : separator ∉ part := by
  induction text generalizing part with
  | nil =>
    obtain rfl := List.mem_singleton.mp member
    exact List.not_mem_nil
  | cons head text ih =>
    rw [List.splitOn_cons_eq_if_modifyHead] at member
    split at member <;> rename_i separates
    · rcases List.mem_cons.mp member with rfl | later
      · exact List.not_mem_nil
      · exact ih later
    · obtain ⟨first, rest, parts⟩ := List.exists_cons_of_ne_nil (List.splitOn_ne_nil separator text)
      rw [parts] at member ih
      rcases List.mem_cons.mp member with rfl | later
      · refine List.not_mem_cons_of_ne_of_not_mem ?_ (ih (List.mem_cons_self ..))
        exact Ne.symm (by simpa using separates)
      · exact ih (List.mem_cons_of_mem _ later)

private theorem splitOn_append_slash (before after : List Char) :
    (before ++ '/' :: after).splitOn '/' = before.splitOn '/' ++ after.splitOn '/' :=
  List.splitOn_append_cons_self ..

/-- What follows a slash is resolved against what stands before it. -/
theorem resolve_append_slash (before after : List Char) :
    resolve (before ++ '/' :: after) =
      ((after.splitOn '/').foldl resolveSegment (resolve before).reverse).reverse := by
  rw [resolve, splitOn_append_slash, List.foldl_append, resolve, List.reverse_reverse]

@[simp] theorem resolve_slash_cons (path : List Char) : resolve ('/' :: path) = resolve path :=
  resolve_append_slash [] path

@[simp] theorem resolve_dot_slash_cons (path : List Char) :
    resolve ('.' :: '/' :: path) = resolve path :=
  resolve_append_slash ['.'] path

/-- The normal form is what the path resolves to, the root apart, of which nothing is kept. -/
theorem normalize_of_resolve {path : String} (kept : resolve path.toList ≠ []) :
    normalize path = String.ofList (join (resolve path.toList)) := by
  have notRoot : path ≠ "/" := by
    rintro rfl
    exact kept (resolve_slash_cons [])
  rw [normalize, if_neg notRoot]

/-- A segment that is kept wherever it stands. -/
structure IsName (segment : Segment) : Prop where
  noSlash : '/' ∉ segment
  notEmpty : segment ≠ []
  notHere : segment ≠ ['.']
  notAbove : segment ≠ ['.', '.']

section Name

variable {name : Segment} (proper : IsName name)
include proper

theorem IsName.resolveSegment (kept : List Segment) : resolveSegment kept name = name :: kept := by
  have notHere : ¬ (name = [] ∨ name = ['.']) := not_or.mpr ⟨proper.notEmpty, proper.notHere⟩
  rw [Path.resolveSegment, if_neg notHere, if_neg proper.notAbove]

/-- A name behind a slash lies below what stands before it. -/
theorem IsName.resolve_append_slash (directory : List Char) :
    resolve (directory ++ '/' :: name) = resolve directory ++ [name] := by
  rw [Path.resolve_append_slash, List.splitOn_eq_singleton proper.noSlash, List.foldl_cons,
    List.foldl_nil, proper.resolveSegment, List.reverse_cons, List.reverse_reverse]

/-- A path that is a name, or ends in one behind a slash, keeps it in its normal form. -/
theorem IsName.exists_normalize {path : String}
    (ends : path.toList = name ∨ ∃ directory, path.toList = directory ++ '/' :: name) :
    ∃ segments, normalize path = String.ofList (join (segments ++ [name])) := by
  obtain ⟨segments, resolved⟩ : ∃ segments, resolve path.toList = segments ++ [name] := by
    rcases ends with whole | ⟨directory, behind⟩
    · rw [whole, ← resolve_slash_cons]
      exact ⟨_, proper.resolve_append_slash []⟩
    · rw [behind]
      exact ⟨_, proper.resolve_append_slash directory⟩
  refine ⟨segments, ?_⟩
  rw [normalize_of_resolve, resolved]
  rw [resolved]
  exact List.append_ne_nil_of_right_ne_nil _ (List.cons_ne_nil _ _)

end Name

private theorem isName_of_mem_foldl {segments kept : List Segment}
    (noSlash : ∀ segment ∈ segments, '/' ∉ segment) (named : ∀ segment ∈ kept, IsName segment) :
    ∀ segment ∈ segments.foldl resolveSegment kept, IsName segment := by
  induction segments generalizing kept with
  | nil => exact named
  | cons first segments ih =>
    refine ih (fun segment later => noSlash segment (List.mem_cons_of_mem _ later)) ?_
    intro segment member
    unfold resolveSegment at member
    split_ifs at member with nothing above
    · exact named segment member
    · exact named segment (List.mem_of_mem_tail member)
    · rcases List.mem_cons.mp member with rfl | before
      · exact ⟨noSlash _ (List.mem_cons_self ..), fun empty => nothing (.inl empty),
          fun here => nothing (.inr here), above⟩
      · exact named segment before

/-- Every segment that is left of a path is a name. -/
theorem isName_of_mem_resolve {path : List Char} {segment : Segment}
    (member : segment ∈ resolve path) : IsName segment :=
  isName_of_mem_foldl (fun _ => not_mem_of_mem_splitOn)
    (fun _ within => absurd within List.not_mem_nil) segment (List.mem_reverse.mp member)

/-- Only the root has the root as its normal form. -/
theorem normalize_ne_root {path : String} (notRoot : path ≠ "/") : normalize path ≠ "/" := by
  rw [normalize, if_neg notRoot, ne_eq, ← String.toList_inj, String.toList_ofList]
  cases kept : resolve path.toList with
  | nil => decide
  | cons first segments =>
    have named : IsName first := isName_of_mem_resolve (kept ▸ List.mem_cons_self ..)
    obtain ⟨c, rest, rfl⟩ := List.exists_cons_of_ne_nil named.notEmpty
    obtain ⟨behind, starts⟩ : c :: rest <+: ['/'].intercalate ((c :: rest) :: segments) := by
      cases segments with
      | nil => simp
      | cons second segments =>
        rw [List.intercalate_cons_cons, List.append_assoc]
        exact List.prefix_append ..
    intro root
    have root : ['/'].intercalate ((c :: rest) :: segments) = ['/'] := root
    rw [root] at starts
    obtain rfl : c = '/' := (List.cons.inj starts).1
    exact named.noSlash (List.mem_cons_self ..)

/-- Two lists of segments are joined one behind the other, with a slash between them. -/
theorem intercalate_append {segments others : List Segment} (some : segments ≠ [])
    (some' : others ≠ []) :
    ['/'].intercalate (segments ++ others) =
      ['/'].intercalate segments ++ '/' :: ['/'].intercalate others := by
  induction segments with
  | nil => exact absurd rfl some
  | cons first segments ih =>
    cases segments with
    | nil =>
      obtain ⟨second, others, rfl⟩ := List.exists_cons_of_ne_nil some'
      simp [List.intercalate_cons_cons]
    | cons second segments =>
      rw [List.cons_append, List.cons_append, List.intercalate_cons_cons, ← List.cons_append,
        ih (List.cons_ne_nil _ _), List.intercalate_cons_cons, List.append_assoc,
        List.append_assoc, List.append_assoc]

/-- A further name is joined with a slash. -/
theorem join_concat (segments : List Segment) (name : Segment) :
    join (segments ++ [name]) = if segments = [] then name else join segments ++ '/' :: name := by
  cases segments with
  | nil => simp [join]
  | cons first segments =>
    have joined := intercalate_append (List.cons_ne_nil first segments) (List.cons_ne_nil name [])
    rw [List.intercalate_singleton] at joined
    rw [if_neg (List.cons_ne_nil _ _)]
    exact joined

/-- The last name of a path and its directory, `.` at the top, are read off again. -/
theorem parentAndName_join (segments : List Segment) {name : Segment} (noSlash : '/' ∉ name) :
    parentAndName (String.ofList (join (segments ++ [name]))) =
      (String.ofList (join segments), String.ofList name) := by
  have noSlash' : ∀ c ∈ name.reverse, (c != '/') = true := fun c member =>
    bne_iff_ne.mpr (ne_of_mem_of_not_mem (List.mem_reverse.mp member) noSlash)
  by_cases atTop : segments = []
  · have single : name.reverse.dropWhile (· != '/') = [] := by
      rw [← List.append_nil name.reverse, List.dropWhile_append_of_pos noSlash', List.dropWhile_nil]
    simp only [parentAndName, String.toList_ofList, join_concat, if_pos atTop, single]
    rw [atTop]
    rfl
  · have found : (join segments ++ '/' :: name).reverse =
        name.reverse ++ '/' :: (join segments).reverse := by simp
    simp only [parentAndName, String.toList_ofList, join_concat, if_neg atTop, found,
      List.dropWhile_append_of_pos noSlash', List.takeWhile_append_of_pos noSlash',
      bne_self_eq_false, List.dropWhile_cons_of_neg, List.takeWhile_cons_of_neg,
      Bool.false_eq_true, not_false_eq_true, List.append_nil, List.reverse_reverse]

end ImageAudit.Path
