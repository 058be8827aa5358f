import ImageAudit.Proofs.Extension

/-! # Where the state of a layer comes from

The packages installed at a layer are those of the nearest database at or below it. A database that
lists nothing counts as well: it leaves nothing installed. The record of a layer has the owners and
the packages that this database gives. Two adjacent layers share their state exactly when the upper
one has no database, because a state bears the position of the layer that it was made for.
-/

namespace ImageAudit.Chain

/-- The packages that the database of the layer at a position lists. -/
def listedAt? (links : List ChainLink) (position : Nat) : Option (List InstalledPackage) :=
  links[position]?.bind (·.contents.packages)

/-- What is installed at a layer: what the nearest database at or below it lists, if there is
one. -/
inductive InstalledAt (links : List ChainLink) (position : Nat) :
    Option (List InstalledPackage) → Prop where
  | listed {source : Nat} {packages : List InstalledPackage} (atOrBelow : source ≤ position)
      (lists : listedAt? links source = some packages)
      (nearest : ∀ between, source < between → between ≤ position →
        listedAt? links between = none) : InstalledAt links position (some packages)
  | unlisted (never : ∀ source ≤ position, listedAt? links source = none) :
      InstalledAt links position none

section Installed

variable {links : List ChainLink} {position : Nat}

/-- There is one nearest database at most. -/
theorem InstalledAt.unique {first second : Option (List InstalledPackage)}
    (left : InstalledAt links position first) (right : InstalledAt links position second) :
    first = second := by
  cases left with
  | @listed source packages atOrBelow lists nearest =>
    cases right with
    | @listed source' packages' atOrBelow' lists' nearest' =>
      rcases Nat.lt_trichotomy source source' with before | rfl | after
      · rw [nearest source' before atOrBelow'] at lists'
        cases lists'
      · rw [← lists, lists']
      · rw [nearest' source after atOrBelow] at lists
        cases lists
    | unlisted never =>
      rw [never source atOrBelow] at lists
      cases lists
  | unlisted never =>
    cases right with
    | listed atOrBelow' lists' _ =>
      rw [never _ atOrBelow'] at lists'
      cases lists'
    | unlisted _ => rfl

theorem InstalledAt.succ {installed : Option (List InstalledPackage)}
    (below : InstalledAt links position installed) :
    InstalledAt links (position + 1) ((listedAt? links (position + 1)).or installed) := by
  cases lists : listedAt? links (position + 1) with
  | some packages =>
    exact .listed (Nat.le_refl _) lists fun between after before => by omega
  | none =>
    rw [Option.none_or]
    cases below with
    | listed atOrBelow found nearest =>
      refine .listed (Nat.le_succ_of_le atOrBelow) found fun between after before => ?_
      rcases Nat.le_succ_iff.mp before with inside | rfl
      · exact nearest between after inside
      · exact lists
    | unlisted never =>
      refine .unlisted fun source before => ?_
      rcases Nat.le_succ_iff.mp before with inside | rfl
      · exact never source inside
      · exact lists

end Installed

section State

variable (policy : ExclusionPolicy) {links : List ChainLink} {position : Nat} {link : ChainLink}

/-- The state of a layer is its own, or else that of the layers below it. -/
theorem stateAfter_take_succ (present : links[position]? = some link) :
    stateAfter policy (links.take (position + 1)) =
      (link.ownState? policy).getD (stateAfter policy (links.take position)) := by
  rw [List.take_add_one, present, Option.toList_some, stateAfter_concat]

/-- The owners and the packages of a state are those that some installed packages give. -/
structure Reflects (state : PackageState) (installed : Option (List InstalledPackage)) : Prop where
  owned : state.owned = installed.elim .empty (OwnershipMap.resolve policy)
  packages : state.packages = installed.elim .empty PackageSet.ofPackages

theorem reflects_getD_ownState? {state : PackageState}
    {installed : Option (List InstalledPackage)} (below : Reflects policy state installed) :
    Reflects policy ((link.ownState? policy).getD state)
      (link.contents.packages.or installed) := by
  unfold ChainLink.ownState?
  cases link.contents.packages with
  | some packages => exact ⟨rfl, rfl⟩
  | none => exact below

/-- The state of a layer reflects what is installed there. -/
theorem exists_installedAt (present : position < links.length) :
    ∃ installed, InstalledAt links position installed ∧
      Reflects policy (stateAfter policy (links.take (position + 1))) installed := by
  have here (place : Nat) (inside : place < links.length) :
      links[place]? = some links[place] := List.getElem?_eq_getElem inside
  have lists (place : Nat) (inside : place < links.length) :
      listedAt? links place = links[place].contents.packages := by
    rw [listedAt?, here place inside, Option.bind_some]
  induction position with
  | zero =>
    rw [stateAfter_take_succ policy (here 0 present)]
    have bottom : Reflects policy (stateAfter policy (links.take 0)) none := ⟨rfl, rfl⟩
    refine ⟨_, ?_, reflects_getD_ownState? policy bottom⟩
    rw [Option.or_none, ← lists 0 present]
    cases found : listedAt? links 0 with
    | some packages => exact .listed (Nat.le_refl 0) found fun between after before => by omega
    | none => exact .unlisted fun source before => Nat.le_zero.mp before ▸ found
  | succ position ih =>
    obtain ⟨installed, below, reflects⟩ := ih (Nat.lt_of_succ_lt present)
    rw [stateAfter_take_succ policy (here _ present)]
    refine ⟨_, ?_, reflects_getD_ownState? policy reflects⟩
    rw [← lists _ present]
    exact below.succ

/-- A state that was made from a database bears the position of a layer. -/
theorem exists_mem_of_origin {layer : Nat}
    (made : (stateAfter policy links).origin = .database layer) :
    ∃ link ∈ links, link.layer.index = layer := by
  unfold stateAfter at made
  cases found : links.reverse.findSome? (·.ownState? policy) with
  | none =>
    rw [found] at made
    cases made
  | some state =>
    rw [found] at made
    obtain ⟨link, member, own⟩ := List.exists_of_findSome?_eq_some found
    obtain ⟨packages, _, rfl⟩ := Option.map_eq_some_iff.mp own
    exact ⟨link, List.mem_reverse.mp member, StateOrigin.database.inj made⟩

/-- No lower layer has the position of a layer. -/
theorem InOrder.index_lt (ordered : InOrder links) (member : link ∈ links.take position) :
    link.layer.index < position := by
  obtain ⟨place, present⟩ := List.mem_iff_getElem?.mp member
  rw [List.getElem?_take] at present
  split at present
  · rename_i below
    rwa [ordered.index present]
  · cases present

theorem sharesState_iff (ordered : InOrder links) {below above : LayerRecord}
    (builtBelow : (build policy links)[position]? = some below)
    (builtAbove : (build policy links)[position + 1]? = some above)
    (present : links[position + 1]? = some link) :
    above.sharesState below = true ↔ link.contents.packages = none := by
  rw [getElem?_build, present, stateAfter_take_succ policy present] at builtAbove
  rw [getElem?_build] at builtBelow
  obtain ⟨lower, _, rfl⟩ := Option.map_eq_some_iff.mp builtBelow
  obtain rfl := Option.some.inj builtAbove
  rw [LayerRecord.sharesState, decide_eq_true_iff]
  dsimp only [ChainLink.record, ChainLink.ownState?]
  cases link.contents.packages with
  | none => exact iff_of_true rfl rfl
  | some packages =>
    refine iff_of_false (fun same => ?_) nofun
    obtain ⟨link', member, index⟩ := exists_mem_of_origin policy same.symm
    have lower := ordered.index_lt member
    rw [index, ordered.index present] at lower
    exact Nat.lt_irrefl _ lower

end State

/-- Each record of a chain is made from what its layer writes and from the nearest database at or
below it, and stays as it is whatever is put on top. It shares its state with the record below
exactly when its layer has no database. -/
theorem build_from_nearest_database (policy : ExclusionPolicy) (links : List ChainLink)
    (ordered : InOrder links) :
    (build policy links).length = links.length ∧
    (∀ position link, links[position]? = some link → ∃ record installed,
      (build policy links)[position]? = some record ∧ record.index = position ∧
      record.changed = link.contents.changed ∧
      (record.hasDatabase = true ↔ ∃ packages, link.contents.packages = some packages) ∧
      InstalledAt links position installed ∧
      record.state.owned = installed.elim .empty (OwnershipMap.resolve policy) ∧
      record.state.packages = installed.elim .empty PackageSet.ofPackages) ∧
    (∀ further, build policy links <+: build policy (links ++ further)) ∧
    ∀ position below above link, (build policy links)[position]? = some below →
      (build policy links)[position + 1]? = some above → links[position + 1]? = some link →
      (above.sharesState below = true ↔ link.contents.packages = none) := by
  refine ⟨length_build policy links, ?_, build_prefix policy links, ?_⟩
  · intro position link present
    have inside := (List.getElem?_eq_some_iff.mp present).1
    obtain ⟨installed, nearest, reflects⟩ := exists_installedAt policy inside
    refine ⟨link.record (stateAfter policy (links.take (position + 1))), installed, ?_,
      ordered.index present, rfl, Option.isSome_iff_exists, nearest, reflects.owned,
      reflects.packages⟩
    rw [getElem?_build, present, Option.map_some]
  · intro position below above link builtBelow builtAbove present
    exact sharesState_iff policy ordered builtBelow builtAbove present

section Sample

/-- The base installs a program, the next layer has no database, and the database of the last one
lists nothing. -/
def sampleReset : List ChainLink :=
  [sampleLink 0 (some [sampleTool]) "usr/bin/tool", sampleLink 1 none "usr/bin/tool",
    sampleLink 2 (some []) "srv/data"]

/-- Nothing is inherited past a database that lists nothing. -/
theorem build_from_nearest_database_sample :
    InOrder sampleReset ∧
      sampleReset[2]? = some (sampleLink 2 (some []) "srv/data") ∧
      ∃ record, (build .standard sampleReset)[2]? = some record ∧
        record.state.owned = OwnershipMap.resolve .standard [] ∧
        record.state.packages = PackageSet.ofPackages [] := by
  have ordered : InOrder sampleReset := rfl
  have resets : InstalledAt sampleReset 2 (some []) :=
    .listed (Nat.le_refl 2) rfl fun between after before => by omega
  obtain ⟨record, installed, built, _, _, _, nearest, owned, packages⟩ :=
    (build_from_nearest_database .standard sampleReset ordered).2.1 2 _ rfl
  obtain rfl := nearest.unique resets
  exact ⟨ordered, rfl, record, built, owned, packages⟩

end Sample

end ImageAudit.Chain
