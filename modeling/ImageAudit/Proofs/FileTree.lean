import ImageAudit.FileTree
import ImageAudit.Proofs.Fallible
import ImageAudit.Proofs.Path
import ImageAudit.Proofs.Stateful
import Mathlib.Tactic.SplitIfs

/-! # What a change to a tree leaves as it was

A node that is put at a place shows there only, and a part that is put back below a directory shows
only there and below it. So a path leads to the same in two trees that are the same outside a
directory, where it does not pass through that directory: because there was none when it was
followed, or because its name is none of the components.
-/

namespace ImageAudit.FileTree

section Parts

variable (tree part : FileTree) {directory other place : Place} {node : FileNode}

theorem liesBelow_eq_true_iff :
    liesBelow directory place = true ↔ directory <+: place ∧ place ≠ directory := by
  rw [liesBelow, Bool.and_eq_true, List.isPrefixOf_iff_prefix, bne_iff_ne]

theorem node?_put_of_ne (elsewhere : other ≠ place) :
    (tree.put place node).node? other = tree.node? other := by
  rw [node?, node?, put, List.lookup_cons, beq_eq_false_iff_ne.mpr elsewhere]

theorem node?_put_self (notRoot : place ≠ []) : (tree.put place node).node? place = some node := by
  rw [node?, if_neg notRoot, put, List.lookup_cons_self]

/-- What lies below a directory does not depend on what is put elsewhere. -/
theorem below_put (outside : ¬ liesBelow directory place = true) :
    (tree.put place node).below directory = tree.below directory := by
  have same : (tree.put place node).nodes.filter (fun entry => liesBelow directory entry.1) =
      tree.nodes.filter (fun entry => liesBelow directory entry.1) :=
    List.filter_cons_of_neg outside
  rw [below, same, below]

private theorem lookup_filter_place (keeps : Place → Bool) (nodes : List (Place × FileNode)) :
    (nodes.filter fun entry => keeps entry.1).lookup place =
      if keeps place then nodes.lookup place else none := by
  induction nodes with
  | nil => simp
  | cons entry nodes ih =>
    obtain ⟨here, node⟩ := entry
    rw [List.filter_cons]
    by_cases same : place = here
    · subst same
      by_cases kept : keeps place <;> simp [kept, ih]
    · have differs : (place == here) = false := beq_eq_false_iff_ne.mpr same
      by_cases kept : keeps here <;> simp [kept, List.lookup_cons, differs, ih]

private theorem lookup_moved (outside : ¬ directory <+: place) (nodes : List (Place × FileNode)) :
    (nodes.map fun (below, node) => (directory ++ below, node)).lookup place = none := by
  rw [List.lookup_eq_none_iff]
  intro _ member
  obtain ⟨⟨below, node⟩, _, rfl⟩ := List.mem_map.mp member
  refine bne_iff_ne.mpr ?_
  rintro rfl
  exact outside (List.prefix_append ..)

private theorem filter_moved (apart : ∀ place, directory <+: place → ¬ liesBelow other place = true)
    (nodes : List (Place × FileNode)) :
    (nodes.map fun (below, node) => (directory ++ below, node)).filter
      (fun entry => liesBelow other entry.1) = [] := by
  rw [List.filter_eq_nil_iff]
  intro _ member
  obtain ⟨⟨below, node⟩, _, rfl⟩ := List.mem_map.mp member
  exact apart _ (List.prefix_append ..)

/-- A part that is put back shows only in its directory. -/
theorem node?_withBelow (outside : ¬ directory <+: place) :
    (tree.withBelow directory part).node? place = tree.node? place := by
  have kept : (!liesBelow directory place) = true := by
    rw [Bool.not_eq_true', ← Bool.not_eq_true, liesBelow_eq_true_iff]
    exact fun below => outside below.1
  have others : (tree.emptied directory).nodes.lookup place = tree.nodes.lookup place := by
    rw [emptied, lookup_filter_place (fun place => !liesBelow directory place), if_pos kept]
  rw [node?, node?, withBelow, List.lookup_append, lookup_moved outside, Option.none_or, others]

/-- A part that is put back does not show below a directory that lies apart from its own. -/
theorem below_withBelow (apart : ¬ directory <+: other) (apart' : ¬ other <+: directory) :
    (tree.withBelow directory part).below other = tree.below other := by
  have notBoth (place : Place) (below : directory <+: place) : ¬ liesBelow other place = true := by
    intro inside
    rcases List.prefix_or_prefix_of_prefix below (liesBelow_eq_true_iff.mp inside).1 with up | down
    · exact apart up
    · exact apart' down
  have kept : (tree.emptied directory).nodes.filter (fun entry => liesBelow other entry.1) =
      tree.nodes.filter (fun entry => liesBelow other entry.1) := by
    rw [emptied, List.filter_filter]
    refine List.filter_congr fun entry _ => ?_
    by_cases inside : liesBelow other entry.1 = true
    · have outside : liesBelow directory entry.1 = false := by
        rw [← Bool.not_eq_true, liesBelow_eq_true_iff]
        exact fun below => notBoth _ below.1 inside
      rw [inside, outside]
      rfl
    · rw [Bool.not_eq_true _ |>.mp inside]
      rfl
  rw [below, withBelow, List.filter_append, filter_moved notBoth, List.nil_append, kept, below]

end Parts

/-- The trees have the same at the places that do not lie in a directory, and the same below those
that lie apart from it. -/
structure SameOutside (directory : Place) (tree other : FileTree) : Prop where
  node? : ∀ place, ¬ directory <+: place → other.node? place = tree.node? place
  below : ∀ place, ¬ directory <+: place → ¬ place <+: directory →
    other.below place = tree.below place

namespace SameOutside

variable {tree other last : FileTree} {directory inner : Place}

theorem refl (tree : FileTree) : SameOutside directory tree tree :=
  ⟨fun _ _ => rfl, fun _ _ _ => rfl⟩

theorem trans (same : SameOutside directory tree other) (next : SameOutside directory other last) :
    SameOutside directory tree last where
  node? place outside := (next.node? place outside).trans (same.node? place outside)
  below place apart apart' := (next.below place apart apart').trans (same.below place apart apart')

/-- What is the same outside a directory is so outside one above it. -/
theorem mono (same : SameOutside inner tree other) (above : directory <+: inner) :
    SameOutside directory tree other where
  node? place outside := same.node? place fun inside => outside (above.trans inside)
  below place apart apart' := by
    refine same.below place (fun inside => apart (above.trans inside)) fun inside => ?_
    rcases List.prefix_or_prefix_of_prefix above inside with up | down
    · exact apart up
    · exact apart' down

theorem put (tree : FileTree) (place : Place) (node : FileNode) :
    SameOutside place tree (tree.put place node) where
  node? other outside := by
    refine node?_put_of_ne tree ?_
    rintro rfl
    exact outside List.prefix_rfl
  below other _ apart := below_put tree fun inside => apart (liesBelow_eq_true_iff.mp inside).1

theorem withBelow (tree part : FileTree) (directory : Place) :
    SameOutside directory tree (tree.withBelow directory part) where
  node? _ outside := node?_withBelow tree part outside
  below _ apart apart' := below_withBelow tree part apart apart'

end SameOutside

section Following

variable {tree other : FileTree} {directory place : Place} {name : String}

theorem follow_append (tree : FileTree) (above below : List String) :
    tree.follow (above ++ below) = tree.follow above >>= below.foldlM tree.enter :=
  List.foldlM_append

/-- A component leads on from a directory only: nowhere, to the directory above it or to what lies
in it. -/
theorem enter_eq_ok_iff {component : String} {reached : Place} :
    tree.enter place component = .ok reached ↔ tree.node? place = some .directory ∧
      (if component = "" ∨ component = "." then place = reached
      else if component = ".." then place.dropLast = reached
      else component.utf8ByteSize ≤ maxNameSize ∧
        (tree.node? (place ++ [component])).isSome = true ∧ place ++ [component] = reached) := by
  unfold enter
  by_cases directory : tree.node? place = some .directory
  · rw [if_neg (not_not_intro directory), and_iff_right directory]
    split
    · rw [Except.ok.injEq]
    · split
      · rw [Except.ok.injEq]
      · split <;> rename_i long
        · exact ⟨nofun, fun kept => absurd kept.1 (Nat.not_le_of_lt long)⟩
        · rw [and_iff_right (Nat.le_of_not_lt long)]
          split <;> rename_i present
          · rw [and_iff_right present, Except.ok.injEq]
          · exact ⟨nofun, fun kept => absurd kept.1 present⟩
  · rw [if_pos directory]
    exact ⟨nofun, fun kept => absurd kept.1 directory⟩

theorem SameOutside.enter (same : SameOutside directory tree other)
    (absent : tree.node? directory = none) (outside : ¬ directory <+: place) {component : String}
    {reached : Place} (entered : tree.enter place component = .ok reached) :
    other.enter place component = .ok reached ∧ ¬ directory <+: reached := by
  rw [enter_eq_ok_iff] at entered ⊢
  rw [same.node? place outside, and_iff_right entered.1]
  obtain ⟨-, led⟩ := entered
  split_ifs at led ⊢
  · exact ⟨led, led ▸ outside⟩
  · exact ⟨led, led ▸ fun above => outside (above.trans (List.dropLast_prefix _))⟩
  · obtain ⟨short, present, rfl⟩ := led
    have still : ¬ directory <+: place ++ [component] := by
      rw [List.prefix_concat_iff]
      rintro (rfl | above)
      · rw [absent] at present
        cases present
      · exact outside above
    exact ⟨⟨short, (same.node? _ still).symm ▸ present, rfl⟩, still⟩

private theorem SameOutside.foldlM_enter (same : SameOutside directory tree other)
    (absent : tree.node? directory = none) (outside : ¬ directory <+: place)
    {components : List String} {reached : Place}
    (followed : components.foldlM tree.enter place = .ok reached) :
    components.foldlM other.enter place = .ok reached := by
  induction components generalizing place with
  | nil => exact followed
  | cons component components ih =>
    rw [List.foldlM_cons] at followed ⊢
    obtain ⟨between, entered, followed⟩ := Fallible.bind_eq_ok_iff.mp followed
    obtain ⟨entered, outside⟩ := same.enter absent outside entered
    rw [entered, Fallible.ok_bind]
    exact ih outside followed

/-- A path that leads somewhere does not pass through what is not there. -/
theorem SameOutside.follow (same : SameOutside directory tree other)
    (absent : tree.node? directory = none) {components : List String} {reached : Place}
    (followed : tree.follow components = .ok reached) :
    other.follow components = .ok reached := by
  refine same.foldlM_enter absent (fun root => ?_) followed
  rw [List.prefix_nil.mp root] at absent
  cases absent

theorem not_mem_of_enter (outside : name ∉ place) {component : String}
    (differs : component ≠ name) {reached : Place}
    (entered : tree.enter place component = .ok reached) : name ∉ reached := by
  obtain ⟨-, led⟩ := enter_eq_ok_iff.mp entered
  split_ifs at led
  · exact led ▸ outside
  · exact led ▸ fun member => outside ((List.dropLast_sublist _).subset member)
  · obtain ⟨-, -, rfl⟩ := led
    simp [outside, Ne.symm differs]

section Named

variable (same : SameOutside (directory ++ [name]) tree other)
include same

theorem SameOutside.node?_of_not_mem (outside : name ∉ place) :
    other.node? place = tree.node? place :=
  same.node? place fun above => outside (above.subset (by simp))

theorem SameOutside.enter_of_not_mem (outside : name ∉ place) {component : String}
    (differs : component ≠ name) : other.enter place component = tree.enter place component := by
  have below : name ∉ place ++ [component] := by simp [outside, Ne.symm differs]
  simp only [FileTree.enter, same.node?_of_not_mem outside, same.node?_of_not_mem below]

private theorem SameOutside.foldlM_of_not_mem (outside : name ∉ place) {components : List String}
    (fresh : name ∉ components) :
    components.foldlM other.enter place = components.foldlM tree.enter place ∧
      ∀ reached, components.foldlM tree.enter place = .ok reached → name ∉ reached := by
  induction components generalizing place with
  | nil => exact ⟨rfl, fun reached followed => Except.ok.inj followed ▸ outside⟩
  | cons component components ih =>
    obtain ⟨differs, fresh⟩ := not_or.mp (mt List.mem_cons.mpr fresh)
    rw [List.foldlM_cons, List.foldlM_cons, same.enter_of_not_mem outside (Ne.symm differs)]
    cases entered : tree.enter place component with
    | error fault => exact ⟨rfl, fun _ followed => nomatch followed⟩
    | ok between => exact ih (not_mem_of_enter outside (Ne.symm differs) entered) fresh

end Named

theorem eq_components {path : String} {pieces : List String}
    (cut : components? path = .ok pieces) : pieces = components path := by
  unfold components? at cut
  split_ifs at cut
  exact (Except.ok.inj cut).symm

/-- What lies at a path that does not hold the name of the directory is the same in both trees. -/
theorem SameOutside.find? (same : SameOutside (directory ++ [name]) tree other) {path : String}
    (fresh : name ∉ components path) : other.find? path = tree.find? path := by
  obtain ⟨followed, reached⟩ := same.foldlM_of_not_mem List.not_mem_nil fresh
  unfold FileTree.find? locate
  cases cut : components? path with
  | error fault => rfl
  | ok pieces =>
    rw [eq_components cut, Fallible.ok_bind, Fallible.ok_bind]
    unfold FileTree.follow
    rw [followed]
    cases led : (components path).foldlM tree.enter [] with
    | error fault => rfl
    | ok place => exact same.node?_of_not_mem (reached place led)

end Following

section Making

variable {tree : FileTree} {above : List String} {place : Place} {name path : String}

theorem not_prefix_concat (place : Place) (name : String) : ¬ place ++ [name] <+: place :=
  fun inside => absurd inside.length_le (by simp)

/-- The directory at a place, made where nothing lies yet. -/
def directoryAt (tree : FileTree) (place : Place) : Except PathFault Place × FileTree :=
  match tree.node? place with
  | none => (.ok place, tree.put place .directory)
  | some .directory => (.ok place, tree)
  | some (.file _) => (.error .taken, tree)

theorem ensureDirectory_apply (components : List String) (tree : FileTree) :
    ensureDirectory components tree = match makeDirectory components tree with
      | (.ok _, made) => (.ok (), made)
      | (.error fault, made) =>
        (match made.follow components with
          | .ok place => if made.node? place ≠ some .directory then .error fault else .ok ()
          | .error _ => .error fault, made) := by
  rw [ensureDirectory, Stateful.tryCatch_apply]
  rcases makeDirectory components tree with ⟨_ | _, made⟩
  · change (match made.follow components with
      | .ok place => if made.node? place ≠ some .directory then throw _ else pure ()
      | .error _ => throw _ : Making Unit) made = _
    dsimp only
    cases made.follow components with
    | error => rfl
    | ok place =>
      dsimp only
      split_ifs <;> rfl
  · rfl

theorem sameOutside_directoryAt (tree : FileTree) (place : Place) :
    SameOutside place tree (directoryAt tree place).2 := by
  unfold directoryAt
  split
  · exact .put tree place .directory
  · exact .refl tree
  · exact .refl tree

theorem below_directoryAt (tree : FileTree) (place : Place) :
    (directoryAt tree place).2.below place = tree.below place := by
  unfold directoryAt
  split
  · exact below_put tree fun below => (liesBelow_eq_true_iff.mp below).2 rfl
  · rfl
  · rfl

theorem directoryAt_congr {other : FileTree} (same : other.node? place = tree.node? place) :
    (directoryAt other place).1 = (directoryAt tree place).1 := by
  unfold directoryAt
  rw [same]
  split <;> rfl

/-- A component that leads to what lies in a directory. -/
structure IsEntry (name : String) : Prop where
  notEmpty : name ≠ ""
  notHere : name ≠ "."
  notAbove : name ≠ ".."

theorem isEntry_of_isName (proper : Path.IsName name.toList) : IsEntry name where
  notEmpty same := proper.notEmpty (congrArg String.toList same)
  notHere same := proper.notHere (congrArg String.toList same)
  notAbove same := proper.notAbove (congrArg String.toList same)

/-- A name below a path is the last component. -/
theorem exists_components_below (proper : Path.IsName name.toList) (base : String) :
    ∃ above, components (Path.below base name) = above ++ [name] ∧
      ∀ tree place, follow tree (components base) = .ok place → follow tree above = .ok place := by
  have relative : Text.startsWith name "/" = false := by
    rw [Text.startsWith, ← Bool.not_eq_true, List.isPrefixOf_iff_prefix]
    exact fun starts => proper.noSlash (starts.subset (List.mem_singleton_self _))
  have last : components name = [name] := by
    rw [components, List.splitOn_eq_singleton proper.noSlash, List.map_singleton,
      String.ofList_toList]
  have joined (before : List Char) : components (String.ofList (before ++ '/' :: name.toList)) =
      components (String.ofList before) ++ [name] := by
    rw [← last]
    simp only [components, String.toList_ofList, List.splitOn_append_cons_self, List.map_append]
  rw [Path.below, if_neg (Bool.not_eq_true _ |>.mpr relative)]
  split_ifs with ends
  · rcases ends with rfl | slash
    · exact ⟨[], by rw [String.empty_append, last, List.nil_append], fun _ _ => id⟩
    · obtain ⟨before, text⟩ := List.isSuffixOf_iff_suffix.mp slash
      have cut : components base = components (String.ofList before) ++ [""] := by
        simp only [components, String.toList_ofList, ← text]
        exact (congrArg (List.map String.ofList)
          (List.splitOn_append_cons_self (a := '/') before [])).trans List.map_append
      refine ⟨components (String.ofList before), ?_, ?_⟩
      · rw [← joined, ← String.ofList_toList (s := base ++ name), String.toList_append, ← text,
          List.append_assoc]
        rfl
      · intro tree place led
        rw [cut, follow_append] at led
        obtain ⟨between, led, stays⟩ := Fallible.bind_eq_ok_iff.mp led
        rw [List.foldlM_cons, funext fun place => List.foldlM_nil, bind_pure] at stays
        obtain ⟨-, here⟩ := enter_eq_ok_iff.mp stays
        rw [if_pos (.inl rfl)] at here
        rw [led, here]
  · refine ⟨components base, ?_, fun _ _ => id⟩
    rw [← String.ofList_toList (s := base ++ "/" ++ name), String.toList_append,
      String.toList_append, List.append_assoc]
    exact (joined base.toList).trans (by rw [String.ofList_toList])

section Entry

variable (entry : IsEntry name) (reached : tree.follow above = .ok place)
variable (directory : tree.node? place = some .directory)
include entry reached directory

theorem follow_concat : tree.follow (above ++ [name]) =
    if maxNameSize < name.utf8ByteSize then .error .tooLong
    else if (tree.node? (place ++ [name])).isSome then .ok (place ++ [name])
    else .error .missing := by
  obtain ⟨notEmpty, notHere, notAbove⟩ := entry
  rw [follow_append, reached, Fallible.ok_bind, List.foldlM_cons, enter,
    if_neg (not_not_intro directory), if_neg (not_or.mpr ⟨notEmpty, notHere⟩), if_neg notAbove]
  split_ifs <;> rfl

theorem makeDirectory_concat : makeDirectory (above ++ [name]) tree =
    if maxNameSize < name.utf8ByteSize then (.error .tooLong, tree)
    else match tree.node? (place ++ [name]) with
      | none => (.ok (), tree.put (place ++ [name]) .directory)
      | some _ => (.error .taken, tree) := by
  obtain ⟨notEmpty, notHere, notAbove⟩ := entry
  have last : (above ++ [name]).reverse.dropWhile (· = "") = name :: above.reverse := by
    rw [List.reverse_append, List.reverse_singleton, List.singleton_append,
      List.dropWhile_cons_of_neg (by simpa using notEmpty)]
  have target : tree.placeFor above name = if maxNameSize < name.utf8ByteSize then .error .tooLong
      else .ok (place ++ [name], tree.node? (place ++ [name])) := by
    rw [placeFor, reached, Fallible.ok_bind, if_neg (not_not_intro directory),
      if_neg (not_or.mpr ⟨notHere, notAbove⟩)]
    split_ifs <;> rfl
  simp only [makeDirectory, last, Stateful.bind_apply, Stateful.get_apply, List.reverse_reverse,
    target]
  split_ifs
  · rfl
  · cases tree.node? (place ++ [name]) <;> rfl

theorem ensureDirectory_concat : ensureDirectory (above ++ [name]) tree =
    if maxNameSize < name.utf8ByteSize then (.error .tooLong, tree)
    else ((directoryAt tree (place ++ [name])).1.map fun _ => (),
      (directoryAt tree (place ++ [name])).2) := by
  have made := makeDirectory_concat entry reached directory
  have led := follow_concat entry reached directory
  rw [ensureDirectory_apply, made]
  by_cases long : maxNameSize < name.utf8ByteSize
  · rw [if_pos long] at led
    simp only [if_pos long, led]
  · rw [if_neg long] at led
    rw [if_neg long, if_neg long]
    unfold directoryAt
    match found : tree.node? (place ++ [name]) with
    | none => rfl
    | some .directory =>
      rw [found, Option.isSome_some, if_pos rfl] at led
      simp only [led, found]
      rfl
    | some (.file _) =>
      rw [found, Option.isSome_some, if_pos rfl] at led
      simp only [led, found]
      rfl

end Entry

theorem locating_apply (path : String) (tree : FileTree) :
    locating path tree = (tree.locate path, tree) := by
  unfold locating
  rw [Stateful.bind_apply]
  change (liftM (tree.locate path) : Making Place) tree = _
  cases tree.locate path <;> rfl

/-- A directory is ensured at once, unless one above it is missing. -/
theorem ensureDirectories_apply {components : List String} (cut : components? path = .ok components)
    (kept : (ensureDirectory components tree).1 ≠ .error .missing) :
    ensureDirectories path tree = ensureDirectory components tree := by
  rw [ensureDirectories, cut]
  change (tryCatch (ensureDirectory components) fun fault => do
    if fault ≠ .missing then throw fault
    ensureAbove ((components.filter fun name => name != "" && name != ".").dropLast).reverse
    ensureDirectory components : Making Unit) tree = _
  rw [Stateful.tryCatch_apply]
  rcases ensured : ensureDirectory components tree with ⟨fault | _, made⟩
  · rw [ensured] at kept
    dsimp only
    rw [if_pos fun missing => kept (congrArg Except.error missing)]
    rfl
  · rfl

/-- A name in a directory is made a directory, unless there is one or the name cannot be one. -/
theorem ensureDirectories_below (proper : Path.IsName name.toList) {base : String}
    (reached : tree.follow (components base) = .ok place)
    (directory : tree.node? place = some .directory) :
    (ensureDirectories (Path.below base name) *> locating (Path.below base name)) tree =
      match components? (Path.below base name) with
      | .error fault => (.error fault, tree)
      | .ok _ =>
        if maxNameSize < name.utf8ByteSize then (.error .tooLong, tree)
        else directoryAt tree (place ++ [name]) := by
  obtain ⟨above, path, leads⟩ := exists_components_below proper base
  have reached := leads tree place reached
  have entry := isEntry_of_isName proper
  have ensured := ensureDirectory_concat entry reached directory
  have led := follow_concat entry reached directory
  change ((ensureDirectories _ >>= fun _ => locating _) : Making Place) tree = _
  cases cut : components? (Path.below base name) with
  | error fault =>
    rw [ensureDirectories, cut]
    rfl
  | ok pieces =>
    have pieces_eq : pieces = above ++ [name] := (eq_components cut).trans path
    subst pieces_eq
    have located (tree : FileTree) : tree.locate (Path.below base name) =
        tree.follow (above ++ [name]) := by
      rw [locate, cut, Fallible.ok_bind]
    dsimp only
    by_cases long : maxNameSize < name.utf8ByteSize
    · rw [if_pos long] at ensured ⊢
      rw [Stateful.bind_apply, ensureDirectories_apply cut (by rw [ensured]; nofun), ensured]
    · rw [if_neg long] at ensured led ⊢
      rw [Stateful.bind_apply, ensureDirectories_apply cut ?_, ensured]
      · unfold directoryAt
        match found : tree.node? (place ++ [name]) with
        | none =>
          have same := SameOutside.put tree (place ++ [name]) .directory
          have led := follow_concat entry (same.follow found reached)
            ((same.node? place (not_prefix_concat place name)).trans directory)
          rw [node?_put_self _ (by simp), if_neg long, Option.isSome_some, if_pos rfl] at led
          simp only [Except.map, locating_apply, located, led]
        | some .directory =>
          rw [found, Option.isSome_some, if_pos rfl] at led
          simp only [Except.map, locating_apply, located, led]
        | some (.file _) => rfl
      · rw [ensured]
        unfold directoryAt
        split <;> nofun

theorem placeFor_eq_ok_none {target : Place}
    (found : tree.placeFor above name = .ok (target, none)) :
    ∃ directory, tree.follow above = .ok directory ∧ tree.node? directory = some .directory ∧
      name ≠ "." ∧ name ≠ ".." ∧ name.utf8ByteSize ≤ maxNameSize ∧ target = directory ++ [name] ∧
      tree.node? target = none := by
  obtain ⟨directory, led, found⟩ := Fallible.bind_eq_ok_iff.mp found
  by_cases isDirectory : tree.node? directory = some .directory
  · rw [if_neg (not_not_intro isDirectory)] at found
    split_ifs at found with dots long
    · cases found
    · cases found
    · obtain ⟨notHere, notAbove⟩ := not_or.mp dots
      obtain ⟨rfl, absent⟩ := Prod.mk.inj (Except.ok.inj found)
      exact ⟨directory, led, isDirectory, notHere, notAbove, Nat.le_of_not_lt long, rfl, absent⟩
  · rw [if_pos isDirectory] at found
    cases found

/-- Empty components at the end of a path lead nowhere else. -/
theorem follow_append_empty (reached : tree.follow above = .ok place)
    (directory : tree.node? place = some .directory) {ends : List String}
    (empty : ∀ component ∈ ends, component = "") : tree.follow (above ++ ends) = .ok place := by
  have stays : tree.enter place "" = .ok place := enter_eq_ok_iff.mpr ⟨directory, by simp⟩
  rw [follow_append, reached, Fallible.ok_bind]
  induction ends with
  | nil => rfl
  | cons component ends ih =>
    rw [List.foldlM_cons, empty component (List.mem_cons_self ..), stays, Fallible.ok_bind]
    exact ih fun other member => empty other (List.mem_cons_of_mem _ member)

/-- A list of components is cut before its last one that is not empty. -/
theorem exists_of_dropWhile_reverse {components above : List String}
    (cut : components.reverse.dropWhile (· = "") = name :: above) :
    name ≠ "" ∧ ∃ ends, components = above.reverse ++ [name] ++ ends ∧
      ∀ component ∈ ends, component = "" := by
  refine ⟨?_, (components.reverse.takeWhile (· = "")).reverse, ?_, ?_⟩
  · have head :=
      List.head?_dropWhile_not (fun component => decide (component = "")) components.reverse
    simpa [cut] using head
  · have whole := List.takeWhile_append_dropWhile (p := (· = "")) (l := components.reverse)
    rw [cut] at whole
    simpa using (congrArg List.reverse whole).symm
  · intro component member
    simpa using List.all_eq_true.mp List.all_takeWhile component (List.mem_reverse.mp member)

/-- Where a directory could be made at a path nothing lay before. The path leads to it as long as
it is there, whatever is made in it. -/
theorem makeDirectoryAt_eq_ok {made : FileTree}
    (ran : makeDirectoryAt path tree = (.ok (), made)) :
    ∃ place name, (placeOf path).getLast? = some name ∧ tree.node? (place ++ [name]) = none ∧
      made = tree.put (place ++ [name]) .directory ∧
      ∀ other, SameOutside (place ++ [name]) tree other →
        other.node? (place ++ [name]) = some .directory →
        other.follow (components path) = .ok (place ++ [name]) := by
  obtain ⟨pieces, _, cut, ran⟩ := Stateful.bind_eq_ok_iff.mp ran
  obtain ⟨cut', rfl⟩ := Stateful.lift_eq_ok_iff.mp cut
  obtain rfl := eq_components cut'
  unfold makeDirectory at ran
  match split : (components path).reverse.dropWhile (· = "") with
  | [] =>
    rw [split] at ran
    cases ran
  | name :: above =>
    rw [split] at ran
    obtain ⟨_, _, got, ran⟩ := Stateful.bind_eq_ok_iff.mp ran
    cases got
    match placed : tree.placeFor above.reverse name with
    | .error fault =>
      rw [placed] at ran
      cases ran
    | .ok (_, some _) =>
      rw [placed] at ran
      cases ran
    | .ok (target, none) =>
      rw [placed] at ran
      cases ran
      obtain ⟨place, led, directory, notHere, notAbove, short, rfl, absent⟩ :=
        placeFor_eq_ok_none placed
      obtain ⟨notEmpty, ends, whole, empty⟩ := exists_of_dropWhile_reverse split
      refine ⟨place, name, ?_, absent, rfl, ?_⟩
      · have dropped : ends.filter (· != "") = [] :=
          List.filter_eq_nil_iff.mpr fun component member => by simp [empty component member]
        rw [placeOf, whole, List.filter_append, List.filter_append, dropped]
        simp [notEmpty]
      · intro other same here
        have directory : other.node? place = some .directory :=
          (same.node? place (not_prefix_concat place name)).trans directory
        have led := follow_concat ⟨notEmpty, notHere, notAbove⟩ (same.follow absent led) directory
        rw [if_neg (Nat.not_lt_of_le short), here, Option.isSome_some, if_pos rfl] at led
        rw [whole]
        exact follow_append_empty led here empty

end Making

end ImageAudit.FileTree
