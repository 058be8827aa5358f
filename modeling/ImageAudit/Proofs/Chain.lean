import ImageAudit.Chain
import ImageAudit.Proofs.Ownership
import Mathlib.Data.List.Induction

/-! # Chains in closed form

Pushing layers one by one gives each layer a record of its own, and nothing that comes later
touches it. Its package state is the one that the highest database at or below the layer gives,
so a layer without a database has the state of the layer below it. In each of these states every
owner is a package with a record under its own identity.
-/

namespace ImageAudit

/-- Every owner has a record of its own identity among the packages. -/
def PackageState.Closed (state : PackageState) : Prop :=
  ∀ path key, state.owned.owner? path = some key →
    ∃ package, state.packages.record? key = some package ∧ package.key = key

theorem PackageState.closed_empty : empty.Closed := by
  intro path key owned
  simp [empty] at owned

theorem PackageState.closed_ofPackages (policy : ExclusionPolicy) (layer : Nat)
    (packages : List InstalledPackage) : (ofPackages policy layer packages).Closed := by
  intro path key owned
  obtain ⟨package, listed, rfl⟩ := OwnershipMap.exists_package_of_owner owned
  exact PackageSet.exists_record_of_mem listed

/-- The record of a layer with the given package state. -/
def ChainLink.record (link : ChainLink) (state : PackageState) : LayerRecord where
  index := link.layer.index
  layerId := link.layer.id
  diffId := link.diffId
  hasDatabase := link.contents.hasDatabase
  changed := link.contents.changed
  state := state

/-- The package state that the database of a layer gives, if the layer has one. -/
def ChainLink.ownState? (policy : ExclusionPolicy) (link : ChainLink) : Option PackageState :=
  link.contents.packages.map (PackageState.ofPackages policy link.layer.index)

namespace Chain

/-- The layers come in the order of their indices. -/
def InOrder (links : List ChainLink) : Prop :=
  links.map (·.layer.index) = List.range links.length

theorem InOrder.index {links : List ChainLink} (ordered : InOrder links) {position : Nat}
    {link : ChainLink} (present : links[position]? = some link) : link.layer.index = position := by
  have bound := (List.getElem?_eq_some_iff.mp present).1
  have same := congrArg (fun indices : List Nat => indices[position]?) ordered
  simpa [present, List.getElem?_range bound] using same

/-- The package state after some layers: that of the highest database, empty without any. -/
def stateAfter (policy : ExclusionPolicy) (links : List ChainLink) : PackageState :=
  (links.reverse.findSome? (·.ownState? policy)).getD .empty

theorem stateAfter_concat (policy : ExclusionPolicy) (links : List ChainLink) (link : ChainLink) :
    stateAfter policy (links ++ [link]) =
      (link.ownState? policy).getD (stateAfter policy links) := by
  simp only [stateAfter, List.reverse_append, List.reverse_singleton, List.singleton_append,
    List.findSome?_cons]
  cases link.ownState? policy <;> rfl

theorem closed_stateAfter (policy : ExclusionPolicy) (links : List ChainLink) :
    (stateAfter policy links).Closed := by
  simp only [stateAfter]
  cases found : links.reverse.findSome? (·.ownState? policy) with
  | none => exact PackageState.closed_empty
  | some state =>
    obtain ⟨link, _, own⟩ := List.exists_of_findSome?_eq_some found
    obtain ⟨packages, _, rfl⟩ := Option.map_eq_some_iff.mp own
    exact PackageState.closed_ofPackages policy link.layer.index packages

private theorem build_concat (policy : ExclusionPolicy) (links : List ChainLink)
    (link : ChainLink) :
    build policy (links ++ [link]) =
      build policy links ++ [link.record (stateAbove policy (build policy links) link)] := by
  rw [build, List.foldl_append]
  rfl

private theorem stateAbove_eq (policy : ExclusionPolicy) (chain : Chain) (link : ChainLink) :
    stateAbove policy chain link = (link.ownState? policy).getD chain.topState := by
  unfold stateAbove ChainLink.ownState?
  cases link.contents.packages <;> rfl

theorem topState_build (policy : ExclusionPolicy) (links : List ChainLink) :
    (build policy links).topState = stateAfter policy links := by
  induction links using List.reverseRecOn with
  | nil => rfl
  | append_singleton links link ih =>
    rw [build_concat, stateAfter_concat, topState, List.getLast?_concat, stateAbove_eq, ih]
    rfl

theorem build_append_singleton (policy : ExclusionPolicy) (links : List ChainLink)
    (link : ChainLink) :
    build policy (links ++ [link]) =
      build policy links ++ [link.record (stateAfter policy (links ++ [link]))] := by
  rw [build_concat, stateAbove_eq, topState_build, stateAfter_concat]

@[simp] theorem length_build (policy : ExclusionPolicy) (links : List ChainLink) :
    (build policy links).length = links.length := by
  induction links using List.reverseRecOn with
  | nil => rfl
  | append_singleton links link ih =>
    simp only [build_append_singleton, List.length_append, ih, List.length_singleton]

/-- The record of a layer does not depend on the layers above it. -/
theorem getElem?_build (policy : ExclusionPolicy) (links : List ChainLink) (position : Nat) :
    (build policy links)[position]? =
      links[position]?.map (·.record (stateAfter policy (links.take (position + 1)))) := by
  induction links using List.reverseRecOn with
  | nil => rfl
  | append_singleton links link ih =>
    rw [build_append_singleton]
    rcases Nat.lt_trichotomy position links.length with below | rfl | above
    · rw [List.getElem?_append_left (by simpa using below), List.getElem?_append_left below, ih,
        List.take_append_of_le_length (by omega)]
    · have built := length_build policy links
      rw [← built, List.getElem?_concat_length, built, List.getElem?_concat_length, Option.map_some,
        List.take_of_length_le (by simp)]
    · have bound : (links ++ [link]).length ≤ position := by
        simp only [List.length_append, List.length_singleton]
        omega
      rw [List.getElem?_eq_none bound, List.getElem?_eq_none (by simpa using bound)]
      rfl

end Chain

end ImageAudit
