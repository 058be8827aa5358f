import ImageAudit.Proofs.FileTree.Building
import Mathlib.Data.List.Induction

/-! # Files made below directories

A directory is made with those above it wherever no file lies on the way, and a file is written
wherever its directory is there and no directory lies in its place. Nothing else in the tree changes
then. In a tree where everything lies in a directory, a path leads to what lies at its place.
-/

namespace ImageAudit.FileTree

/-- A name that something in a directory can have. -/
structure IsNodeName (name : String) : Prop extends IsEntry name where
  short : name.utf8ByteSize ≤ maxNameSize

/-- Neither on the way to a place nor at it there is a file. -/
def IsFree (tree : FileTree) (place : Place) : Prop :=
  ∀ upper, upper <+: place → ∀ content, tree.node? upper ≠ some (.file content)

/-- Whatever lies in the tree lies in a directory. -/
def IsRooted (tree : FileTree) : Prop :=
  ∀ place name, (tree.node? (place ++ [name])).isSome → tree.node? place = some .directory

section Places

variable {tree : FileTree} {above place upper : Place} {name : String}

theorem IsFree.of_prefix (free : tree.IsFree place) (higher : upper <+: place) :
    tree.IsFree upper :=
  fun other further => free other (further.trans higher)

theorem IsFree.eq_directory (free : tree.IsFree place) (present : (tree.node? place).isSome) :
    tree.node? place = some .directory := by
  match found : tree.node? place with
  | none =>
    rw [found] at present
    cases present
  | some .directory => rfl
  | some (.file content) => exact absurd found (free place List.prefix_rfl content)

theorem hasDirectories_nil (tree : FileTree) : tree.HasDirectories [] := by
  intro upper root
  rw [List.prefix_nil.mp root]
  rfl

theorem HasDirectories.concat (directories : tree.HasDirectories above)
    (directory : tree.node? (above ++ [name]) = some .directory) :
    tree.HasDirectories (above ++ [name]) := by
  intro upper higher
  rcases List.prefix_concat_iff.mp higher with rfl | higher
  · exact directory
  · exact directories upper higher

theorem not_prefix_dropLast (notRoot : place ≠ []) : ¬ place <+: place.dropLast := by
  obtain ⟨above, name, rfl⟩ := (List.eq_nil_or_concat' place).resolve_left notRoot
  rw [List.dropLast_concat]
  exact not_prefix_concat above name

/-- In a rooted tree there are directories on the way to whatever there is. -/
theorem IsRooted.hasDirectories (rooted : tree.IsRooted)
    (directory : tree.node? place = some .directory) : tree.HasDirectories place := by
  induction place using List.reverseRecOn with
  | nil => exact hasDirectories_nil tree
  | append_singleton above name ih =>
    exact (ih (rooted above name (by rw [directory]; rfl))).concat directory

end Places

section Following

variable {tree : FileTree} {place : Place}

theorem HasDirectories.follow (directories : tree.HasDirectories place)
    (names : ∀ name ∈ place, IsNodeName name) : tree.follow place = .ok place := by
  have kept : place.filter (· != "") = place :=
    List.filter_eq_self.mpr fun name member => bne_iff_ne.mpr (names name member).notEmpty
  have able : ∀ name ∈ place, CanName name := fun name member =>
    ⟨(names name member).notHere, (names name member).notAbove, (names name member).short⟩
  rw [← kept] at directories
  rw [follow_of_hasDirectories able directories, kept]

/-- Where there is no file on the way, a place that is not reached is missing. -/
theorem IsFree.follow (free : tree.IsFree place) (missing : ¬ tree.HasDirectories place)
    (names : ∀ name ∈ place, IsNodeName name) : tree.follow place = .error .missing := by
  induction place using List.reverseRecOn with
  | nil => exact absurd (hasDirectories_nil tree) missing
  | append_singleton above name ih =>
    have names' : ∀ other ∈ above, IsNodeName other := fun other member =>
      names other (List.mem_append_left _ member)
    by_cases directories : tree.HasDirectories above
    · have named := names name List.mem_concat_self
      have absent : ¬ (tree.node? (above ++ [name])).isSome := fun present =>
        missing (directories.concat (free.eq_directory present))
      rw [follow_concat named.toIsEntry (directories.follow names') directories.self,
        if_neg (Nat.not_lt.mpr named.short), if_neg absent]
    · rw [follow_append, ih (free.of_prefix (List.prefix_append ..)) directories names']
      rfl

/-- By names no other place is reached. -/
theorem eq_of_follow (names : ∀ name ∈ place, IsNodeName name) {reached : Place}
    (led : tree.follow place = .ok reached) : reached = place := by
  induction place using List.reverseRecOn generalizing reached with
  | nil => exact (Except.ok.inj led).symm
  | append_singleton above name ih =>
    rw [follow_append] at led
    obtain ⟨between, before, entered⟩ := Fallible.bind_eq_ok_iff.mp led
    obtain rfl := ih (fun other member => names other (List.mem_append_left _ member)) before
    rw [List.foldlM_cons, funext fun place => List.foldlM_nil, bind_pure] at entered
    have named := names name List.mem_concat_self
    obtain ⟨-, next⟩ := enter_eq_ok_iff.mp entered
    rw [if_neg (not_or.mpr ⟨named.notEmpty, named.notHere⟩), if_neg named.notAbove] at next
    exact next.2.2.symm

/-- In a rooted tree the names of a place lead to whatever lies there. -/
theorem IsRooted.follow (rooted : tree.IsRooted) (present : (tree.node? place).isSome)
    (names : ∀ name ∈ place, IsNodeName name) : tree.follow place = .ok place := by
  cases place using List.reverseRecOn with
  | nil => rfl
  | append_singleton above name =>
    have directories := rooted.hasDirectories (rooted above name present)
    have named := names name List.mem_concat_self
    rw [follow_concat named.toIsEntry
      (directories.follow fun other member => names other (List.mem_append_left _ member))
      directories.self, if_neg (Nat.not_lt.mpr named.short), if_pos present]

/-- A path by names leads to what lies at its place, and nowhere if nothing does. -/
theorem IsRooted.find? (rooted : tree.IsRooted) {path : String}
    (cut : components? path = .ok place) (names : ∀ name ∈ place, IsNodeName name) :
    tree.find? path = tree.node? place := by
  rw [FileTree.find?, locate, cut, Fallible.ok_bind]
  by_cases present : (tree.node? place).isSome
  · rw [rooted.follow present names]
    rfl
  · cases led : tree.follow place with
    | ok reached =>
      rw [eq_of_follow names led]
      rfl
    | error fault => exact (Option.not_isSome_iff_eq_none.mp present).symm

end Following

/-- The tree with directories at a place and on the way to it, and the same elsewhere. -/
def Extends (tree : FileTree) (place : Place) (made : FileTree) : Prop :=
  ∀ other, made.node? other = if other <+: place then some .directory else tree.node? other

section Making

variable {tree : FileTree} {above place : Place} {name path : String}

theorem HasDirectories.extends (directories : tree.HasDirectories place) :
    tree.Extends place tree := by
  intro other
  split
  · exact directories other ‹_›
  · rfl

theorem Extends.hasDirectories {made : FileTree} (extended : tree.Extends place made) :
    made.HasDirectories place :=
  fun upper higher => (extended upper).trans (if_pos higher)

theorem Extends.concat {made last : FileTree} (extended : tree.Extends above made)
    (here : last.node? (above ++ [name]) = some .directory)
    (elsewhere : ∀ other, other ≠ above ++ [name] → last.node? other = made.node? other) :
    tree.Extends (above ++ [name]) last := by
  intro other
  by_cases same : other = above ++ [name]
  · rw [same, here, if_pos List.prefix_rfl]
  · have way : other <+: above ↔ other <+: above ++ [name] := by
      rw [List.prefix_concat_iff, or_iff_right same]
    rw [elsewhere other same, extended other]
    exact if_congr way rfl rfl

/-- With the directories above it there, a directory is made unless there is a file. -/
theorem exists_ensureDirectory {made : FileTree} (extended : tree.Extends above made)
    (free : tree.IsFree (above ++ [name])) (names : ∀ other ∈ above ++ [name], IsNodeName other) :
    ∃ last, ensureDirectory (above ++ [name]) made = (.ok (), last) ∧
      tree.Extends (above ++ [name]) last := by
  have named := names name List.mem_concat_self
  have directories := extended.hasDirectories
  have same : made.node? (above ++ [name]) = tree.node? (above ++ [name]) :=
    (extended _).trans (if_neg (not_prefix_concat above name))
  have reached := directories.follow fun other member => names other (List.mem_append_left _ member)
  rw [ensureDirectory_concat named.toIsEntry reached directories.self,
    if_neg (Nat.not_lt.mpr named.short)]
  unfold directoryAt
  match found : made.node? (above ++ [name]) with
  | none =>
    exact ⟨_, rfl, extended.concat (node?_put_self _ (by simp)) fun _ => node?_put_of_ne _⟩
  | some .directory => exact ⟨made, rfl, extended.concat found fun _ _ => rfl⟩
  | some (.file content) => exact absurd (same.symm.trans found) (free _ List.prefix_rfl content)

/-- Where a directory above is missing, that is what is found wrong. -/
theorem ensureDirectory_of_missing (free : tree.IsFree (above ++ [name]))
    (missing : ¬ tree.HasDirectories above)
    (names : ∀ other ∈ above ++ [name], IsNodeName other) :
    ensureDirectory (above ++ [name]) tree = (.error .missing, tree) := by
  have named := names name List.mem_concat_self
  have led := (free.of_prefix (List.prefix_append ..)).follow missing fun other member =>
    names other (List.mem_append_left _ member)
  have made : makeDirectory (above ++ [name]) tree = (.error .missing, tree) := by
    have last : (above ++ [name]).reverse.dropWhile (· = "") = name :: above.reverse := by
      rw [List.reverse_append, List.reverse_singleton, List.singleton_append,
        List.dropWhile_cons_of_neg (by simpa using named.notEmpty)]
    have nowhere : tree.placeFor above name = .error .missing := by
      rw [placeFor, led]
      rfl
    simp only [makeDirectory, last, Stateful.bind_apply, Stateful.get_apply, List.reverse_reverse,
      nowhere]
    rfl
  have unled : tree.follow (above ++ [name]) = .error .missing := by
    rw [follow_append, led]
    rfl
  rw [ensureDirectory_apply, made]
  dsimp only
  rw [unled]

/-- A place becomes a directory, and so do those above it, where no file lies on the way. -/
theorem exists_ensureAbove (free : tree.IsFree place) (names : ∀ name ∈ place, IsNodeName name) :
    ∃ made, ensureAbove place.reverse tree = (.ok (), made) ∧ tree.Extends place made := by
  induction place using List.reverseRecOn with
  | nil => exact ⟨tree, rfl, (hasDirectories_nil tree).extends⟩
  | append_singleton above name ih =>
    have restored : (name :: above.reverse).reverse = above ++ [name] := by
      rw [List.reverse_cons, List.reverse_reverse]
    rw [List.reverse_concat, ensureAbove, Stateful.tryCatch_apply, restored]
    by_cases directories : tree.HasDirectories above
    · obtain ⟨made, ran, extended⟩ := exists_ensureDirectory directories.extends free names
      rw [ran]
      exact ⟨made, rfl, extended⟩
    · rw [ensureDirectory_of_missing free directories names]
      obtain ⟨between, ran, extended⟩ := ih (free.of_prefix (List.prefix_append ..))
        fun other member => names other (List.mem_append_left _ member)
      obtain ⟨made, ran', extended'⟩ := exists_ensureDirectory extended free names
      refine ⟨made, ?_, extended'⟩
      dsimp only
      rw [if_neg (not_not_intro rfl), Stateful.bind_apply, ran]
      exact ran'

/-- The directory of a path by names is made with those above it, where no file lies on the way. -/
theorem exists_ensureDirectories (cut : components? path = .ok place) (notRoot : place ≠ [])
    (free : tree.IsFree place) (names : ∀ name ∈ place, IsNodeName name) :
    ∃ made, ensureDirectories path tree = (.ok (), made) ∧ tree.Extends place made := by
  obtain ⟨above, name, rfl⟩ := (List.eq_nil_or_concat' place).resolve_left notRoot
  have kept : (above ++ [name]).filter (fun name => name != "" && name != ".") = above ++ [name] :=
    List.filter_eq_self.mpr fun other member => by
      simp [(names other member).notEmpty, (names other member).notHere]
  obtain ⟨made, ran, extended⟩ := exists_ensureAbove free names
  refine ⟨made, ?_, extended⟩
  rw [ensureDirectories, cut]
  change (tryCatch (ensureDirectory (above ++ [name])) fun fault => do
    if fault ≠ .missing then throw fault
    ensureAbove (((above ++ [name]).filter fun name =>
      name != "" && name != ".").dropLast).reverse
    ensureDirectory (above ++ [name]) : Making Unit) tree = _
  rw [kept, List.dropLast_concat, ← ran, List.reverse_concat, ensureAbove, List.reverse_cons,
    List.reverse_reverse]

/-- A file is written where its directory is there and its place is no directory. -/
theorem writeFile_apply (cut : components? path = .ok place) (notRoot : place ≠ [])
    (directories : tree.HasDirectories place.dropLast) (names : ∀ name ∈ place, IsNodeName name)
    (noDirectory : tree.node? place ≠ some .directory) (content : Bytes) :
    writeFile path content tree = (.ok (), tree.put place (.file content)) := by
  obtain ⟨above, name, rfl⟩ := (List.eq_nil_or_concat' place).resolve_left notRoot
  rw [List.dropLast_concat] at directories
  have named := names name List.mem_concat_self
  have reached := directories.follow fun other member => names other (List.mem_append_left _ member)
  have target : tree.placeFor above name =
      .ok (above ++ [name], tree.node? (above ++ [name])) := by
    rw [placeFor, reached, Fallible.ok_bind, if_neg (not_not_intro directories.self),
      if_neg (not_or.mpr ⟨named.notHere, named.notAbove⟩), if_neg (Nat.not_lt.mpr named.short)]
    rfl
  rw [writeFile, cut, Stateful.bind_apply, Stateful.lift_apply]
  dsimp only
  rw [List.reverse_concat]
  dsimp only
  rw [Stateful.bind_apply, Stateful.get_apply, List.reverse_reverse]
  dsimp only
  rw [target]
  cases found : tree.node? (above ++ [name]) with
  | none => rfl
  | some node =>
    cases node with
    | directory => exact absurd found noDirectory
    | file before => rfl

end Making

/-- The tree with a file at a place, directories on the way to it, and the same elsewhere. -/
def Stores (tree : FileTree) (place : Place) (content : Bytes) (made : FileTree) : Prop :=
  ∀ other, made.node? other = if other = place then some (.file content)
    else if other <+: place then some .directory else tree.node? other

section Storing

variable {tree made : FileTree} {place : Place} {content : Bytes}

/-- A file is put into its directory. -/
theorem Extends.stores (extended : tree.Extends place.dropLast made) (notRoot : place ≠ [])
    (content : Bytes) : tree.Stores place content (made.put place (.file content)) := by
  intro other
  by_cases same : other = place
  · rw [same, node?_put_self _ notRoot, if_pos rfl]
  · obtain ⟨above, name, rfl⟩ := (List.eq_nil_or_concat' place).resolve_left notRoot
    rw [List.dropLast_concat] at extended
    have way : other <+: above ↔ other <+: above ++ [name] := by
      rw [List.prefix_concat_iff, or_iff_right same]
    rw [node?_put_of_ne _ same, if_neg same, extended other]
    exact if_congr way rfl rfl

/-- A file takes the place of the one that was there. -/
theorem Stores.put {before : Bytes} (stored : tree.Stores place before made) (notRoot : place ≠ [])
    (content : Bytes) : tree.Stores place content (made.put place (.file content)) := by
  intro other
  by_cases same : other = place
  · rw [same, node?_put_self _ notRoot, if_pos rfl]
  · rw [node?_put_of_ne _ same, if_neg same, stored other, if_neg same]

theorem Stores.node?_self (stored : tree.Stores place content made) :
    made.node? place = some (.file content) :=
  (stored place).trans (if_pos rfl)

theorem Stores.hasDirectories (stored : tree.Stores place content made) (notRoot : place ≠ []) :
    made.HasDirectories place.dropLast := by
  intro upper higher
  have above := higher.trans (List.dropLast_prefix place)
  have strict : upper ≠ place := by
    rintro rfl
    exact not_prefix_dropLast notRoot higher
  rw [stored upper, if_neg strict, if_pos above]

/-- A tree stays rooted when a file is stored, unless it takes the place of a directory. -/
theorem IsRooted.stores (rooted : tree.IsRooted) (stored : tree.Stores place content made)
    (noDirectory : tree.node? place ≠ some .directory) : made.IsRooted := by
  intro above name present
  by_cases way : above ++ [name] <+: place
  · have higher := (List.prefix_append above [name]).trans way
    have strict : above ≠ place := by
      rintro rfl
      exact not_prefix_concat above name way
    rw [stored above, if_neg strict, if_pos higher]
  · have elsewhere : above ++ [name] ≠ place := by
      rintro rfl
      exact way List.prefix_rfl
    rw [stored, if_neg elsewhere, if_neg way] at present
    have directory := rooted above name present
    have strict : above ≠ place := by
      rintro rfl
      exact noDirectory directory
    rw [stored above, if_neg strict, directory, ite_self]

end Storing

end ImageAudit.FileTree
