import ImageAudit.Proofs.FileTree

/-! # What a built tree holds

A file that is added lies at its place, below directories, and whatever lies elsewhere stays as it
is. A path that names a place by the names that lead to it is followed to that place where there are
directories on the way, and from there to each name in turn.
-/

namespace ImageAudit.FileTree

section Adding

variable (tree : FileTree) {upper place : Place} {path : String} {content : Bytes}

private theorem foldl_putDirectories (place : Place) (count : Nat) (inside : count ≤ place.length)
    (other : Place) :
    ((List.range count).foldl (fun tree count => tree.put (place.take (count + 1)) .directory)
      tree).node? other =
        if other <+: place ∧ other.length ≤ count then some .directory else tree.node? other := by
  induction count with
  | zero =>
    split
    · rename_i above
      rw [List.eq_nil_of_length_eq_zero (Nat.le_zero.mp above.2)]
      rfl
    · rfl
  | succ count ih =>
    rw [List.range_succ, List.foldl_append, List.foldl_cons, List.foldl_nil]
    by_cases same : other = place.take (count + 1)
    · have long : other.length = count + 1 := by
        rw [same, List.length_take]
        omega
      have notRoot : place.take (count + 1) ≠ [] := by
        rw [← same]
        intro root
        rw [root] at long
        cases long
      rw [same, node?_put_self _ notRoot, if_pos]
      exact ⟨List.take_prefix .., Nat.le_of_eq (same ▸ long)⟩
    · rw [node?_put_of_ne _ same, ih (by omega)]
      congr 1
      apply propext
      constructor
      · rintro ⟨above, short⟩
        exact ⟨above, by omega⟩
      · rintro ⟨above, short⟩
        refine ⟨above, ?_⟩
        have shorter : other.length ≠ count + 1 := by
          intro long
          rw [List.prefix_iff_eq_take, long] at above
          exact same above
        omega

/-- The beginnings of a place become directories, and nothing else changes. -/
theorem node?_putDirectories (place other : Place) : (tree.putDirectories place).node? other =
    if other <+: place then some .directory else tree.node? other := by
  rw [putDirectories, foldl_putDirectories _ _ _ (Nat.le_refl _)]
  congr 1
  apply propext
  exact and_iff_left_of_imp fun above => above.length_le

/-- A file that is added lies at its place. -/
theorem node?_addFile_self {name : String} (named : placeOf path = place ++ [name]) :
    (tree.addFile path content).node? (place ++ [name]) = some (.file content) := by
  have notRoot : place ++ [name] ≠ [] :=
    List.append_ne_nil_of_right_ne_nil _ (List.cons_ne_nil _ _)
  rw [addFile, named, node?_put_self _ notRoot]

/-- It lies below directories. -/
theorem node?_addFile_above (above : upper <+: (placeOf path).dropLast)
    (shorter : upper ≠ placeOf path) :
    (tree.addFile path content).node? upper = some .directory := by
  rw [addFile, node?_put_of_ne _ shorter, node?_putDirectories, if_pos above]

/-- What does not lie on the way to it stays as it is. -/
theorem node?_addFile_elsewhere (apart : ¬ place <+: placeOf path) :
    (tree.addFile path content).node? place = tree.node? place := by
  rw [addFile, node?_put_of_ne, node?_putDirectories, if_neg]
  · intro above
    exact apart (above.trans (List.dropLast_prefix _))
  · rintro rfl
    exact apart List.prefix_rfl

/-- A directory stays one unless the file takes its place. -/
theorem node?_addFile_directory (elsewhere : place ≠ placeOf path)
    (directory : tree.node? place = some .directory) :
    (tree.addFile path content).node? place = some .directory := by
  rw [addFile, node?_put_of_ne _ elsewhere, node?_putDirectories, directory, ite_self]

end Adding

section Naming

variable {base name : String} {room : Nat}

/-- What stands behind a slash names a place below what stands before it. -/
theorem placeOf_append_slash (above below : String) :
    placeOf (above ++ "/" ++ below) = placeOf above ++ placeOf below := by
  have joined : (above ++ "/" ++ below).toList = above.toList ++ '/' :: below.toList := by simp
  simp only [placeOf, components, joined, List.splitOn_append_cons_self, List.map_append,
    List.filter_append]

theorem placeOf_name (proper : Path.IsName name.toList) : placeOf name = [name] := by
  have notEmpty : (name != "") = true := bne_iff_ne.mpr (isEntry_of_isName proper).notEmpty
  rw [placeOf, components, List.splitOn_eq_singleton proper.noSlash, List.map_singleton,
    String.ofList_toList, List.filter_singleton, notEmpty]
  rfl

/-- A path that can be followed, also with so many bytes more behind it. -/
structure HasRoom (path : String) (room : Nat) : Prop where
  noZero : '\x00' ∉ path.toList
  short : path.utf8ByteSize + room ≤ maxPathSize

theorem HasRoom.of_le {less : Nat} (hasRoom : HasRoom base room) (fewer : less ≤ room) :
    HasRoom base less :=
  ⟨hasRoom.noZero, Nat.le_trans (Nat.add_le_add_left fewer _) hasRoom.short⟩

theorem HasRoom.components? (hasRoom : HasRoom base room) :
    FileTree.components? base = .ok (components base) := by
  have short := hasRoom.short
  rw [FileTree.components?, if_neg, if_neg (by omega)]
  rw [List.contains_iff_mem]
  exact hasRoom.noZero

/-- A name below a path takes its own bytes and a slash. -/
theorem HasRoom.below (hasRoom : HasRoom base (room + (name.utf8ByteSize + 1)))
    (noZero : '\x00' ∉ name.toList) : HasRoom (Path.below base name) room := by
  have noZero' := hasRoom.noZero
  have short := hasRoom.short
  unfold Path.below
  split_ifs
  · exact ⟨noZero, by omega⟩
  · refine ⟨by simp [noZero, noZero'], ?_⟩
    rw [String.utf8ByteSize_append]
    omega
  · refine ⟨by simp [noZero, noZero'], ?_⟩
    have slash : "/".utf8ByteSize = 1 := by decide
    rw [String.utf8ByteSize_append, String.utf8ByteSize_append, slash]
    omega

end Naming

/-- A component that can be the name of something. -/
def CanName (component : String) : Prop :=
  component ≠ "." ∧ component ≠ ".." ∧ component.utf8ByteSize ≤ maxNameSize

/-- A path that names a place by the names that lead to it. -/
def IsDirect (path : String) : Prop := ∀ component ∈ components path, CanName component

/-- There are directories on the way to a place, and there is one at it. -/
def HasDirectories (tree : FileTree) (place : Place) : Prop :=
  ∀ upper, upper <+: place → tree.node? upper = some .directory

theorem HasDirectories.of_prefix {tree : FileTree} {upper place : Place}
    (directories : tree.HasDirectories place) (above : upper <+: place) :
    tree.HasDirectories upper :=
  fun higher further => directories higher (further.trans above)

theorem HasDirectories.self {tree : FileTree} {place : Place}
    (directories : tree.HasDirectories place) : tree.node? place = some .directory :=
  directories place List.prefix_rfl

section Following

variable {tree : FileTree} {place : Place} {name base : String}

private theorem foldlM_enter_of_hasDirectories {pieces : List String} (start : Place)
    (names : ∀ piece ∈ pieces, CanName piece)
    (directories : tree.HasDirectories (start ++ pieces.filter (· != ""))) :
    pieces.foldlM tree.enter start = .ok (start ++ pieces.filter (· != "")) := by
  induction pieces generalizing start with
  | nil =>
    rw [List.filter_nil, List.append_nil]
    rfl
  | cons piece pieces ih =>
    obtain ⟨⟨notHere, notAbove, short⟩, later⟩ := List.forall_mem_cons.mp names
    have here : tree.node? start = some .directory := directories start (List.prefix_append ..)
    rw [List.foldlM_cons]
    by_cases empty : piece = ""
    · subst empty
      have entered : tree.enter start "" = .ok start := by simp [enter, here]
      rw [entered, Fallible.ok_bind]
      exact ih start later directories
    · have kept : (piece :: pieces).filter (· != "") = piece :: pieces.filter (· != "") := by
        simp [empty]
      rw [kept, List.append_cons] at directories
      have next : tree.node? (start ++ [piece]) = some .directory :=
        directories _ (List.prefix_append ..)
      have entered : tree.enter start piece = .ok (start ++ [piece]) := by
        simp [enter, here, empty, notHere, notAbove, Nat.not_lt.mpr short, next]
      rw [entered, Fallible.ok_bind, ih _ later directories, kept, ← List.append_cons]

/-- Where there are directories on the way, components lead to the place that they name. -/
theorem follow_of_hasDirectories {pieces : List String} (names : ∀ piece ∈ pieces, CanName piece)
    (directories : tree.HasDirectories (pieces.filter (· != ""))) :
    tree.follow pieces = .ok (pieces.filter (· != "")) :=
  foldlM_enter_of_hasDirectories [] names directories

/-- A direct path is followed to its place where there are directories on the way. -/
theorem IsDirect.follow (direct : IsDirect base)
    (directories : tree.HasDirectories (placeOf base)) :
    tree.follow (components base) = .ok (placeOf base) :=
  follow_of_hasDirectories direct directories

variable (proper : Path.IsName name.toList) (short : name.utf8ByteSize ≤ maxNameSize)
variable (reached : tree.follow (components base) = .ok place)
variable (directory : tree.node? place = some .directory)
include proper short reached directory

/-- From a directory a name leads to what lies there. -/
theorem follow_below (present : (tree.node? (place ++ [name])).isSome) :
    tree.follow (components (Path.below base name)) = .ok (place ++ [name]) := by
  obtain ⟨above, cut, leads⟩ := exists_components_below proper base
  rw [cut, follow_concat (isEntry_of_isName proper) (leads tree place reached) directory,
    if_neg (Nat.not_lt.mpr short), if_pos present]

/-- What lies at a path below a directory is what lies there under its name. -/
theorem find?_below
    (hasRoom : HasRoom (Path.below base name) 0) :
    tree.find? (Path.below base name) = tree.node? (place ++ [name]) := by
  obtain ⟨above, split, leads⟩ := exists_components_below proper base
  have led := follow_concat (isEntry_of_isName proper) (leads tree place reached) directory
  rw [if_neg (Nat.not_lt.mpr short), ← split] at led
  rw [find?, locate, hasRoom.components?, Fallible.ok_bind, led]
  cases present : tree.node? (place ++ [name]) with
  | none => rfl
  | some node => exact present

end Following

end ImageAudit.FileTree
