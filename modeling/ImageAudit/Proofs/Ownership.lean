import ImageAudit.Ownership
import ImageAudit.Proofs.Exclusion
import Std.Data.HashMap.Lemmas
import Std.Data.TreeMap.Lemmas

/-! # Owners, path by path

Claims on one path do not touch the owner of another. So the owner of a path is settled by the
claims on it alone, and a policy does no more than drop the claims on the paths that it leaves
out. The owner is one of the claimants, and every claimant has a record in the set of packages.
-/

namespace ImageAudit

namespace OwnershipMap

/-- The owner of a path after one more claim on it. -/
def settleOwner (owner : Option PackageKey) (key : PackageKey) : Option PackageKey :=
  match owner with
  | some first => if first.isTwin key then some first else some key
  | none => some key

@[simp] theorem owner?_empty (path : String) : empty.owner? path = none := by
  simp [owner?, empty]

theorem owner?_settle (map : OwnershipMap) (claim : Claim) (path : String) :
    (map.settle claim).owner? path =
      if claim.path = path then settleOwner (map.owner? path) claim.key else map.owner? path := by
  have inserted : owner? ⟨map.owners.insert claim.path claim.key⟩ path =
      if claim.path = path then some claim.key else map.owner? path := by
    simp only [owner?, Std.TreeMap.getElem?_insert, Std.LawfulEqOrd.compare_eq_iff_eq]
  by_cases same : claim.path = path
  · subst same
    cases found : map.owner? claim.path with
    | none => simp only [settle, found, inserted, settleOwner, if_pos]
    | some first =>
      by_cases twin : first.isTwin claim.key = true
      · simp only [settle, found, twin, settleOwner, if_pos]
      · simp only [settle, found, twin, settleOwner, inserted, if_pos, Bool.false_eq_true, if_false]
  · simp only [same, if_false] at inserted ⊢
    simp only [settle]
    split
    · split
      · rfl
      · exact inserted
    · exact inserted

theorem owner?_foldl_settle (claims : List Claim) (map : OwnershipMap) (path : String) :
    (claims.foldl settle map).owner? path =
      ((claims.filter (·.path = path)).map (·.key)).foldl settleOwner (map.owner? path) := by
  induction claims generalizing map with
  | nil => rfl
  | cons claim rest ih =>
    rw [List.foldl_cons, ih, owner?_settle]
    by_cases same : claim.path = path <;> simp [same]

private theorem foldl_settleOwner_mem {keys : List PackageKey} {owner : Option PackageKey}
    {key : PackageKey} (settled : keys.foldl settleOwner owner = some key) :
    key ∈ keys ∨ owner = some key := by
  induction keys generalizing owner with
  | nil => exact .inr settled
  | cons claimant rest ih =>
    rcases ih settled with later | now
    · exact .inl (List.mem_cons_of_mem _ later)
    · cases owner with
      | none =>
        obtain rfl := Option.some.inj now
        exact .inl (List.mem_cons_self ..)
      | some first =>
        simp only [settleOwner] at now
        split at now
        · exact .inr now
        · obtain rfl := Option.some.inj now
          exact .inl (List.mem_cons_self ..)

end OwnershipMap

/-- The packages that claim a path, in the order of their claims. -/
def claimants (policy : ExclusionPolicy) (packages : List InstalledPackage) (path : String) :
    List PackageKey :=
  ((claims policy packages).filter (·.path = path)).map (·.key)

theorem OwnershipMap.owner?_resolve (policy : ExclusionPolicy) (packages : List InstalledPackage)
    (path : String) :
    (resolve policy packages).owner? path =
      (claimants policy packages path).foldl settleOwner none := by
  rw [resolve, owner?_foldl_settle, owner?_empty, claimants]

private theorem claim?_eq_filter (package : InstalledPackage) (policy : ExclusionPolicy)
    (file : InstalledFile) :
    package.claim? policy file =
      (package.claim? .empty file).filter fun claim => !policy.excludes claim.path := by
  simp only [InstalledPackage.claim?, ExclusionPolicy.excludes_empty, Bool.or_false,
    Bool.or_eq_true]
  by_cases ignored : package.declaresDirectory file = true ∨ file.flags.mayVary = true
  · simp [ignored]
  · cases excluded : policy.excludes (Path.normalize file.path) <;>
      simp [ignored, excluded, Option.filter]

/-- A policy drops claims; it neither makes nor moves any. -/
theorem claims_eq_filter (policy : ExclusionPolicy) (packages : List InstalledPackage) :
    claims policy packages =
      (claims .empty packages).filter fun claim => !policy.excludes claim.path := by
  simp only [claims, List.filter_flatMap, List.filter_filterMap]
  congr
  funext package
  congr
  funext file
  exact claim?_eq_filter package policy file

/-- The owner of a path that a policy does not leave out is the owner without any policy. -/
theorem OwnershipMap.owner?_resolve_eq_ite (policy : ExclusionPolicy)
    (packages : List InstalledPackage) (path : String) :
    (resolve policy packages).owner? path =
      if policy.excludes path then none else (resolve .empty packages).owner? path := by
  have kept : claimants policy packages path =
      if policy.excludes path then [] else claimants .empty packages path := by
    simp only [claimants, claims_eq_filter policy, List.filter_filter]
    split
    · rename_i excluded
      rw [List.map_eq_nil_iff, List.filter_eq_nil_iff]
      intro claim _ both
      simp only [Bool.and_eq_true, decide_eq_true_eq, Bool.not_eq_true'] at both
      rw [both.1, excluded] at both
      exact Bool.noConfusion both.2
    · rename_i included
      congr 1
      apply List.filter_congr
      intro claim _
      by_cases same : claim.path = path <;> simp [same, included]
  rw [owner?_resolve, owner?_resolve, kept]
  split <;> rfl

private theorem OwnershipMap.isSome_foldl_settleOwner (keys : List PackageKey)
    {owner : Option PackageKey} (owned : owner.isSome = true) :
    (keys.foldl settleOwner owner).isSome = true := by
  induction keys generalizing owner with
  | nil => exact owned
  | cons key keys ih =>
    refine ih ?_
    cases owner with
    | none => rfl
    | some first =>
      simp only [settleOwner]
      split <;> rfl

/-- A path that is claimed has an owner. -/
theorem OwnershipMap.isSome_owner?_of_mem {policy : ExclusionPolicy}
    {packages : List InstalledPackage} {claim : Claim} (claimed : claim ∈ claims policy packages) :
    ((resolve policy packages).owner? claim.path).isSome = true := by
  have member : claim.key ∈ claimants policy packages claim.path :=
    List.mem_map_of_mem (List.mem_filter.mpr ⟨claimed, by simp⟩)
  rw [owner?_resolve]
  obtain ⟨first, rest, found⟩ := List.exists_cons_of_ne_nil (List.ne_nil_of_mem member)
  rw [found]
  exact isSome_foldl_settleOwner rest rfl

/-- An owner is a package that the database lists. -/
theorem OwnershipMap.exists_package_of_owner {policy : ExclusionPolicy}
    {packages : List InstalledPackage} {path : String} {key : PackageKey}
    (owned : (resolve policy packages).owner? path = some key) :
    ∃ package ∈ packages, package.record.key = key := by
  rw [owner?_resolve] at owned
  rcases foldl_settleOwner_mem owned with claimant | nobody
  · obtain ⟨claim, member, rfl⟩ := List.mem_map.mp claimant
    obtain ⟨package, listed, member⟩ := List.mem_flatMap.mp (List.mem_filter.mp member).1
    obtain ⟨file, _, claimed⟩ := List.mem_filterMap.mp member
    refine ⟨package, listed, ?_⟩
    simp only [InstalledPackage.claim?] at claimed
    split at claimed
    · cases claimed
    · cases claimed
      rfl
  · cases nobody

namespace PackageSet

private theorem getElem?_foldl_insert (packages : List InstalledPackage)
    (records : Std.HashMap PackageKey PackageRecord) (key : PackageKey) :
    (packages.foldl (fun records package => records.insert package.record.key package.record)
        records)[key]? =
      ((packages.reverse.find? (·.record.key = key)).map (·.record)).or records[key]? := by
  induction packages generalizing records with
  | nil => rfl
  | cons package rest ih =>
    rw [List.foldl_cons, ih, Std.HashMap.getElem?_insert, List.reverse_cons, List.find?_append]
    cases rest.reverse.find? (·.record.key = key) with
    | some later => rfl
    | none => by_cases same : package.record.key = key <;> simp [same]

/-- Of the packages with one identity the last is kept. -/
theorem record?_ofPackages (packages : List InstalledPackage) (key : PackageKey) :
    (ofPackages packages).record? key =
      (packages.reverse.find? (·.record.key = key)).map (·.record) := by
  rw [record?, ofPackages, getElem?_foldl_insert, Std.HashMap.getElem?_empty, Option.or_none]

theorem exists_record_of_mem {packages : List InstalledPackage} {package : InstalledPackage}
    (listed : package ∈ packages) :
    ∃ record, (ofPackages packages).record? package.record.key = some record ∧
      record.key = package.record.key := by
  rw [record?_ofPackages]
  cases found : packages.reverse.find? (·.record.key = package.record.key) with
  | none =>
    have absent := List.find?_eq_none.mp found package (List.mem_reverse.mpr listed)
    simp at absent
  | some last => exact ⟨last.record, rfl, by simpa using List.find?_some found⟩

end PackageSet

end ImageAudit
