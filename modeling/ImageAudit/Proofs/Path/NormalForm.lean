import ImageAudit.Proofs.Path

/-! # Normal forms of paths

The normal form of a path is the root, the top, or names with slashes between them; these are just
the paths that are their own normal form. Apart from the root, paths have one normal form exactly
when they resolve to the same names. What stands before a slash may be brought to its normal form
first, except that nothing before the slash and nothing behind it make the root.
-/

namespace ImageAudit.Path

section Resolution

/-- One more segment leads from the names kept so far, outermost first, to those kept with it. -/
inductive Follows : List Segment → Segment → List Segment → Prop where
  | empty (kept : List Segment) : Follows kept [] kept
  | here (kept : List Segment) : Follows kept ['.'] kept
  | above (kept : List Segment) (last : Segment) : Follows (kept ++ [last]) ['.', '.'] kept
  /-- There is nothing above the top. -/
  | aboveTop : Follows [] ['.', '.'] []
  | name (kept : List Segment) {segment : Segment} (notEmpty : segment ≠ [])
      (notHere : segment ≠ ['.']) (notAbove : segment ≠ ['.', '.']) :
      Follows kept segment (kept ++ [segment])

/-- The segments, taken from left to right, lead from the names kept so far to others. -/
inductive Leads : List Segment → List Segment → List Segment → Prop where
  | nil (kept : List Segment) : Leads kept [] kept
  | cons {kept next names : List Segment} {segment : Segment} {segments : List Segment}
      (first : Follows kept segment next) (rest : Leads next segments names) :
      Leads kept (segment :: segments) names

/-- The segments are what stands between the slashes of the path. -/
structure IsCut (path : List Char) (segments : List Segment) : Prop where
  notEmpty : segments ≠ []
  noSlash : ∀ segment ∈ segments, '/' ∉ segment
  joined : ['/'].intercalate segments = path

/-- The segments of the path lead from the top to the names. -/
def ResolvesTo (path : String) (names : List Segment) : Prop :=
  ∃ segments, IsCut path.toList segments ∧ Leads [] segments names

theorem follows_iff {kept next : List Segment} {segment : Segment} :
    Follows kept segment next ↔ (resolveSegment kept.reverse segment).reverse = next := by
  constructor
  · intro follows
    cases follows with
    | empty | here | above | aboveTop => simp [resolveSegment]
    | name _ notEmpty notHere notAbove => simp [resolveSegment, notEmpty, notHere, notAbove]
  · rintro rfl
    unfold resolveSegment
    split_ifs with nothing above
    · rw [List.reverse_reverse]
      rcases nothing with rfl | rfl
      · exact .empty kept
      · exact .here kept
    · subst above
      rcases List.eq_nil_or_concat kept with rfl | ⟨outer, last, rfl⟩
      · exact .aboveTop
      · simpa using Follows.above outer last
    · obtain ⟨notEmpty, notHere⟩ := not_or.mp nothing
      rw [List.reverse_cons, List.reverse_reverse]
      exact .name kept notEmpty notHere above

theorem leads_iff {kept segments names : List Segment} :
    Leads kept segments names ↔ (segments.foldl resolveSegment kept.reverse).reverse = names := by
  induction segments generalizing kept with
  | nil =>
    rw [List.foldl_nil, List.reverse_reverse]
    constructor
    · intro leads
      cases leads
      rfl
    · rintro rfl
      exact .nil kept
  | cons segment segments ih =>
    rw [List.foldl_cons]
    constructor
    · intro leads
      cases leads with
      | cons first rest =>
        obtain rfl := follows_iff.mp first
        rw [← ih.mp rest, List.reverse_reverse]
    · intro resolved
      apply Leads.cons (follows_iff.mpr rfl)
      rw [ih, List.reverse_reverse]
      exact resolved

theorem isCut_iff {path : List Char} {segments : List Segment} :
    IsCut path segments ↔ path.splitOn '/' = segments := by
  constructor
  · intro cut
    rw [← cut.joined]
    exact List.splitOn_intercalate '/' cut.noSlash cut.notEmpty
  · rintro rfl
    constructor
    · exact List.splitOn_ne_nil '/' path
    · exact fun _ => not_mem_of_mem_splitOn
    · exact List.intercalate_splitOn '/'

theorem resolvesTo_iff {path : String} {names : List Segment} :
    ResolvesTo path names ↔ resolve path.toList = names := by
  simp only [ResolvesTo, isCut_iff, leads_iff, exists_eq_left', List.reverse_nil]
  rfl

end Resolution

section Names

variable {names others : List Segment}

private theorem foldl_resolveSegment_names (named : ∀ name ∈ names, IsName name)
    (kept : List Segment) : names.foldl resolveSegment kept = names.reverse ++ kept := by
  induction names generalizing kept with
  | nil => rfl
  | cons name names ih =>
    obtain ⟨proper, named⟩ := List.forall_mem_cons.mp named
    rw [List.foldl_cons, proper.resolveSegment, ih named, List.reverse_cons, List.append_assoc]
    rfl

/-- Names that are joined are resolved to themselves. -/
theorem resolve_join (named : ∀ name ∈ names, IsName name) : resolve (join names) = names := by
  cases names with
  | nil => rfl
  | cons first names =>
    have cut : (join (first :: names)).splitOn '/' = first :: names :=
      List.splitOn_intercalate '/' (fun name member => (named name member).noSlash)
        (List.cons_ne_nil _ _)
    rw [resolve, cut, foldl_resolveSegment_names named, List.append_nil, List.reverse_reverse]

theorem join_inj (named : ∀ name ∈ names, IsName name) (named' : ∀ name ∈ others, IsName name) :
    join names = join others ↔ names = others := by
  constructor
  · intro same
    rw [← resolve_join named, same, resolve_join named']
  · exact congrArg join

/-- No names are joined to the root. -/
theorem ofList_join_ne_root (named : ∀ name ∈ names, IsName name) :
    String.ofList (join names) ≠ "/" := by
  intro root
  have joined : join names = ['/'] := by simpa using congrArg String.toList root
  have nothing : names = [] := by
    rw [← resolve_join named, joined]
    rfl
  rw [nothing] at joined
  exact absurd joined (by decide)

end Names

section NormalForm

/-- The top, or names with slashes between them. -/
inductive IsRelative : String → Prop where
  | top : IsRelative "."
  | below {names : List Segment} (some : names ≠ []) (named : ∀ name ∈ names, IsName name) :
      IsRelative (String.ofList (['/'].intercalate names))

theorem isRelative_iff {path : String} :
    IsRelative path ↔
      ∃ names, (∀ name ∈ names, IsName name) ∧ String.ofList (join names) = path := by
  constructor
  · intro relative
    cases relative with
    | top => exact ⟨[], by simp, rfl⟩
    | @below names some named =>
      obtain ⟨first, names, rfl⟩ := List.exists_cons_of_ne_nil some
      exact ⟨first :: names, named, rfl⟩
  · rintro ⟨names, named, rfl⟩
    cases names with
    | nil => exact .top
    | cons first names => exact .below (List.cons_ne_nil _ _) named

variable {path other : String}

theorem normalize_of_ne_root (notRoot : path ≠ "/") :
    normalize path = String.ofList (join (resolve path.toList)) := by
  rw [normalize, if_neg notRoot]

theorem normalize_eq_root_iff : normalize path = "/" ↔ path = "/" := by
  constructor
  · exact fun root => Classical.byContradiction fun notRoot => normalize_ne_root notRoot root
  · rintro rfl
    rfl

theorem isRelative_normalize (notRoot : path ≠ "/") : IsRelative (normalize path) := by
  rw [normalize_of_ne_root notRoot]
  exact isRelative_iff.mpr ⟨_, fun _ => isName_of_mem_resolve, rfl⟩

theorem IsRelative.normalize (relative : IsRelative path) : normalize path = path := by
  obtain ⟨names, named, rfl⟩ := isRelative_iff.mp relative
  rw [normalize_of_ne_root (ofList_join_ne_root named), String.toList_ofList, resolve_join named]

theorem normalize_eq_self_iff : normalize path = path ↔ path = "/" ∨ IsRelative path := by
  constructor
  · intro fixed
    by_cases root : path = "/"
    · exact .inl root
    · exact .inr (fixed ▸ isRelative_normalize root)
  · rintro (rfl | relative)
    · rfl
    · exact relative.normalize

theorem normalize_normalize (path : String) : normalize (normalize path) = normalize path := by
  apply normalize_eq_self_iff.mpr
  by_cases root : path = "/"
  · exact .inl (normalize_eq_root_iff.mpr root)
  · exact .inr (isRelative_normalize root)

/-- A path and its normal form resolve to the same names. -/
theorem resolve_normalize (path : String) :
    resolve (normalize path).toList = resolve path.toList := by
  by_cases root : path = "/"
  · rw [root]
    rfl
  · rw [normalize_of_ne_root root, String.toList_ofList]
    exact resolve_join fun _ => isName_of_mem_resolve

theorem normalize_eq_iff (notRoot : path ≠ "/") (notRoot' : other ≠ "/") :
    normalize path = normalize other ↔ resolve path.toList = resolve other.toList := by
  rw [normalize_of_ne_root notRoot, normalize_of_ne_root notRoot', String.ofList_inj]
  exact join_inj (fun _ => isName_of_mem_resolve) fun _ => isName_of_mem_resolve

theorem normalize_ne_empty (path : String) : normalize path ≠ "" := by
  intro empty
  have fixed := normalize_normalize path
  rw [empty] at fixed
  exact absurd fixed (by decide +kernel)

private theorem append_slash_eq_root_iff (before behind : String) :
    before ++ "/" ++ behind = "/" ↔ before = "" ∧ behind = "" := by
  rw [← String.toList_inj, ← String.toList_eq_nil_iff, ← String.toList_eq_nil_iff]
  simp [List.append_eq_singleton_iff]

/-- What stands before a slash may be brought to its normal form first, unless the path is the
root. -/
theorem normalize_append_slash_iff (before behind : String) :
    normalize (before ++ "/" ++ behind) = normalize (normalize before ++ "/" ++ behind) ↔
      ¬ (before = "" ∧ behind = "") := by
  have notRoot : normalize before ++ "/" ++ behind ≠ "/" := by
    rw [Ne, append_slash_eq_root_iff]
    exact fun empty => normalize_ne_empty before empty.1
  rw [← append_slash_eq_root_iff]
  constructor
  · intro same root
    rw [root] at same
    exact notRoot (normalize_eq_root_iff.mp same.symm)
  · intro proper
    rw [normalize_eq_iff proper notRoot]
    have cut (first : String) :
        (first ++ "/" ++ behind).toList = first.toList ++ '/' :: behind.toList := by simp
    rw [cut, cut, resolve_append_slash, resolve_append_slash, resolve_normalize]

end NormalForm

/-- Only the root is brought to the root; any other path to the top or to names with slashes between
them, and these forms are kept. What stands before a slash can be brought to its form first, but
for the root. Apart from the root, paths have the same form exactly when they resolve to the same
names. -/
theorem normalize_canonical (path other before behind : String) :
    (normalize path = "/" ↔ path = "/") ∧
    (path ≠ "/" → IsRelative (normalize path)) ∧
    (normalize path = path ↔ path = "/" ∨ IsRelative path) ∧
    normalize (normalize path) = normalize path ∧
    (normalize (before ++ "/" ++ behind) = normalize (normalize before ++ "/" ++ behind) ↔
      ¬ (before = "" ∧ behind = "")) ∧
    (path ≠ "/" → other ≠ "/" → (normalize path = normalize other ↔
      ∃ names, ResolvesTo path names ∧ ResolvesTo other names)) := by
  refine ⟨normalize_eq_root_iff, isRelative_normalize, normalize_eq_self_iff,
    normalize_normalize path, normalize_append_slash_iff before behind, ?_⟩
  intro notRoot notRoot'
  rw [normalize_eq_iff notRoot notRoot']
  simp only [resolvesTo_iff, exists_eq_left']
  exact eq_comm

/-- Two ways to one directory. -/
theorem normalize_canonical_sample :
    "/usr/lib/../bin" ≠ "/" ∧ ".././usr//bin/" ≠ "/" ∧ IsRelative (normalize "/usr/lib/../bin") ∧
      ∃ names, ResolvesTo "/usr/lib/../bin" names ∧ ResolvesTo ".././usr//bin/" names := by
  have notRoot : "/usr/lib/../bin" ≠ "/" := by decide
  have notRoot' : ".././usr//bin/" ≠ "/" := by decide
  obtain ⟨-, relative, -, -, -, same⟩ :=
    normalize_canonical "/usr/lib/../bin" ".././usr//bin/" "" "usr"
  refine ⟨notRoot, notRoot', relative notRoot, (same notRoot notRoot').mp ?_⟩
  decide +kernel

end ImageAudit.Path
