import ImageAudit.Proofs.Ownership
import Mathlib.Data.List.Basic
import Mathlib.Data.List.Induction

/-! # The first claimant of the last run

The claims on a path fall into runs: consecutive claims for one name, version and release, for
whatever architecture. Settling looks at no more than the present owner, yet this is enough to keep
the first key of a run through all of it, also where a package repeats its own claim, and to give it
up at the first claim of another run. So the owner of a path is the first key of the last run.
-/

namespace ImageAudit

/-- Same name, version and release, for whatever architecture. -/
def PackageKey.SameBuild (a b : PackageKey) : Prop :=
  a.name = b.name ∧ a.version = b.version ∧ a.release = b.release

namespace PackageKey

theorem SameBuild.refl (key : PackageKey) : key.SameBuild key := ⟨rfl, rfl, rfl⟩

theorem SameBuild.trans {a b c : PackageKey} (first : a.SameBuild b) (second : b.SameBuild c) :
    a.SameBuild c :=
  ⟨first.1.trans second.1, first.2.1.trans second.2.1, first.2.2.trans second.2.2⟩

theorem SameBuild.symm {a b : PackageKey} (same : a.SameBuild b) : b.SameBuild a :=
  ⟨same.1.symm, same.2.1.symm, same.2.2.symm⟩

theorem isTwin_iff (a b : PackageKey) : a.isTwin b = true ↔ a.SameBuild b ∧ a.arch ≠ b.arch := by
  simp [isTwin, SameBuild, and_assoc]

end PackageKey

/-- The keys behind the key are all of its build, and the one right before it is not. -/
def BeginsLastRun (keys : List PackageKey) (key : PackageKey) : Prop :=
  ∃ before rest, keys = before ++ key :: rest ∧ (∀ other ∈ rest, other.SameBuild key) ∧
    ∀ last ∈ before.getLast?, ¬ last.SameBuild key

namespace OwnershipMap

open PackageKey

/-- A claim of the owner's build leaves the owner, whether for its architecture or another. -/
theorem settleOwner_of_sameBuild {owner key : PackageKey} (same : key.SameBuild owner) :
    settleOwner (some owner) key = some owner := by
  simp only [settleOwner]
  split
  · rfl
  · rename_i noTwin
    have arch : owner.arch = key.arch := by
      by_contra other
      exact noTwin ((isTwin_iff owner key).mpr ⟨same.symm, other⟩)
    obtain ⟨name, version, release⟩ := same
    cases owner
    cases key
    simp_all

/-- A claim of another build takes the path over. -/
theorem settleOwner_of_not_sameBuild {owner key : PackageKey} (other : ¬ owner.SameBuild key) :
    settleOwner (some owner) key = some key := by
  have noTwin : ¬ owner.isTwin key = true := fun twin => other ((isTwin_iff owner key).mp twin).1
  rw [settleOwner, if_neg noTwin]

/-- The owner through a run is its first key. -/
theorem foldl_settleOwner_of_sameBuild {key : PackageKey} {rest : List PackageKey}
    (run : ∀ other ∈ rest, other.SameBuild key) :
    rest.foldl settleOwner (some key) = some key := by
  induction rest with
  | nil => rfl
  | cons other rest ih =>
    rw [List.foldl_cons, settleOwner_of_sameBuild (run other (List.mem_cons_self ..))]
    exact ih fun later member => run later (List.mem_cons_of_mem _ member)

/-- Whoever owns a path is of the build of the last claimant. -/
theorem sameBuild_getLast_of_foldl {keys : List PackageKey} {owner : PackageKey}
    (settled : keys.foldl settleOwner none = some owner) :
    ∃ last ∈ keys.getLast?, owner.SameBuild last := by
  induction keys using List.reverseRecOn with
  | nil => cases settled
  | append_singleton keys key _ =>
    rw [List.foldl_concat] at settled
    refine ⟨key, List.getLast?_concat, ?_⟩
    cases before : keys.foldl settleOwner none with
    | none =>
      rw [before] at settled
      cases settled
      exact SameBuild.refl _
    | some first =>
      rw [before] at settled
      by_cases same : first.SameBuild key
      · rw [settleOwner_of_sameBuild same.symm] at settled
        cases settled
        exact same
      · rw [settleOwner_of_not_sameBuild same] at settled
        cases settled
        exact SameBuild.refl _

/-- The key that begins the last run owns the path. -/
theorem foldl_settleOwner_of_beginsLastRun {keys : List PackageKey} {key : PackageKey}
    (begins : BeginsLastRun keys key) : keys.foldl settleOwner none = some key := by
  obtain ⟨before, rest, rfl, run, apart⟩ := begins
  rw [List.foldl_append, List.foldl_cons]
  have taken : settleOwner (before.foldl settleOwner none) key = some key := by
    cases settled : before.foldl settleOwner none with
    | none => rfl
    | some owner =>
      obtain ⟨last, isLast, same⟩ := sameBuild_getLast_of_foldl settled
      exact settleOwner_of_not_sameBuild fun same' => apart last isLast (same.symm.trans same')
  rw [taken, foldl_settleOwner_of_sameBuild run]

end OwnershipMap

/-- Where there are claims there is a last run of them. -/
theorem exists_beginsLastRun {keys : List PackageKey} (someKeys : keys ≠ []) :
    ∃ key, BeginsLastRun keys key := by
  induction keys using List.reverseRecOn with
  | nil => exact absurd rfl someKeys
  | append_singleton keys key ih =>
    by_cases empty : keys = []
    · subst empty
      exact ⟨key, [], [], rfl, fun _ member => absurd member List.not_mem_nil, by simp⟩
    · obtain ⟨first, before, rest, split, run, apart⟩ := ih empty
      by_cases same : key.SameBuild first
      · refine ⟨first, before, rest ++ [key], by rw [split]; simp, ?_, apart⟩
        intro other member
        rcases List.mem_append.mp member with earlier | last
        · exact run other earlier
        · rw [List.mem_singleton.mp last]
          exact same
      · refine ⟨key, keys, [], rfl, fun _ member => absurd member List.not_mem_nil, ?_⟩
        intro last isLast same'
        -- The last key before is the first of its run or one behind it.
        have sameFirst : last.SameBuild first := by
          rw [split, List.getLast?_append, List.getLast?_cons, Option.some_or] at isLast
          rcases List.mem_cons.mp (List.mem_of_getLast? (List.getLast?_cons.trans isLast))
            with rfl | member
          · exact PackageKey.SameBuild.refl last
          · exact run last member
        exact same (same'.symm.trans sameFirst)

/-- The first key of the last run, and no other, owns the path. -/
theorem OwnershipMap.foldl_settleOwner_eq_some_iff {keys : List PackageKey} {key : PackageKey} :
    keys.foldl settleOwner none = some key ↔ BeginsLastRun keys key := by
  constructor
  · intro settled
    have someKeys : keys ≠ [] := by
      rintro rfl
      cases settled
    obtain ⟨first, begins⟩ := exists_beginsLastRun someKeys
    rw [foldl_settleOwner_of_beginsLastRun begins] at settled
    exact Option.some.inj settled ▸ begins
  · exact foldl_settleOwner_of_beginsLastRun

/-- The last run may begin with another architecture than an earlier run of its build. -/
example : [⟨"a", "1", "1", "x86_64"⟩, ⟨"a", "1", "1", "i686"⟩, ⟨"a", "2", "1", "x86_64"⟩,
    ⟨"a", "1", "1", "i686"⟩, ⟨"a", "1", "1", "x86_64"⟩, ⟨"a", "1", "1", "x86_64"⟩].foldl
      OwnershipMap.settleOwner none = some ⟨"a", "1", "1", "i686"⟩ := by
  decide

theorem OwnershipMap.foldl_settleOwner_eq_none_iff {keys : List PackageKey} :
    keys.foldl settleOwner none = none ↔ keys = [] := by
  constructor
  · intro settled
    by_contra someKeys
    obtain ⟨first, begins⟩ := exists_beginsLastRun someKeys
    rw [foldl_settleOwner_of_beginsLastRun begins] at settled
    cases settled
  · rintro rfl
    rfl

namespace FileFlags

/-- The attributes that excuse a change. -/
def excuses : List FileFlags := [config, doc, license, missingOk, readme, artifact, ghost]

theorem intersects_union (flags a b : FileFlags) :
    flags.intersects (a.union b) = true ↔
      flags.intersects a = true ∨ flags.intersects b = true := by
  have distributes : flags.bits &&& (a.bits ||| b.bits) =
      (flags.bits &&& a.bits) ||| (flags.bits &&& b.bits) := by
    rw [← UInt32.toBitVec_inj]
    simp only [UInt32.toBitVec_and, UInt32.toBitVec_or, BitVec.and_or_distrib_left]
  simp only [intersects, union, distributes, bne_iff_ne, ne_eq, UInt32.or_eq_zero_iff,
    Classical.not_and_iff_not_or_not]

theorem intersects_foldl_union (flags : FileFlags) (kinds : List FileFlags) (start : FileFlags) :
    flags.intersects (kinds.foldl union start) = true ↔
      flags.intersects start = true ∨ ∃ kind ∈ kinds, flags.intersects kind = true := by
  induction kinds generalizing start with
  | nil => simp
  | cons kind kinds ih => rw [List.foldl_cons, ih, intersects_union]; simp [or_assoc]

/-- A file may change exactly when one of the attributes excuses it. -/
theorem mayVary_iff (flags : FileFlags) :
    flags.mayVary = true ↔ ∃ kind ∈ excuses, flags.intersects kind = true := by
  have nothing : flags.intersects empty = false := by simp [intersects, empty]
  rw [mayVary, varying, intersects_foldl_union, nothing]
  simp [excuses]

end FileFlags

/-- A file counts as a claim on a path: the package declares it as no directory, none of its
attributes excuses a change, and the path is its normal form and is not left out. -/
def InstalledPackage.Claims (package : InstalledPackage) (policy : ExclusionPolicy) (path : String)
    (file : InstalledFile) : Prop :=
  FileMode.isDirectory file.mode = false ∧ file.path ++ "/" ∉ package.dirNames ∧
    (∀ kind ∈ FileFlags.excuses, file.flags.intersects kind = false) ∧
    Path.normalize file.path = path ∧ policy.excludes path = false

instance (package : InstalledPackage) (policy : ExclusionPolicy) (path : String) :
    DecidablePred (package.Claims policy path) :=
  fun _ => inferInstanceAs (Decidable (_ ∧ _))

/-- The packages whose files count as claims on a path, one after the other. -/
def claimsOn (policy : ExclusionPolicy) (packages : List InstalledPackage) (path : String) :
    List PackageKey :=
  packages.flatMap fun package =>
    (package.files.filter (package.Claims policy path ·)).map fun _ => package.record.key

theorem InstalledPackage.claim?_eq_ite (package : InstalledPackage) (policy : ExclusionPolicy)
    (file : InstalledFile) :
    package.claim? policy file =
      if package.Claims policy (Path.normalize file.path) file then
        some ⟨Path.normalize file.path, package.record.key⟩
      else none := by
  have declared : package.declaresDirectory file = true ↔
      FileMode.isDirectory file.mode = true ∨ file.path ++ "/" ∈ package.dirNames := by
    simp [declaresDirectory]
  have ignored : (package.declaresDirectory file || file.flags.mayVary ||
      policy.excludes (Path.normalize file.path)) = true ↔
        ¬ package.Claims policy (Path.normalize file.path) file := by
    simp only [Bool.or_eq_true, declared, FileFlags.mayVary_iff, Claims, true_and]
    grind
  rw [claim?]
  by_cases claims : package.Claims policy (Path.normalize file.path) file
  · rw [if_pos claims, if_neg fun ignores => ignored.mp ignores claims]
  · rw [if_neg claims, if_pos (ignored.mpr claims)]

theorem claimants_eq_claimsOn (policy : ExclusionPolicy) (packages : List InstalledPackage)
    (path : String) : claimants policy packages path = claimsOn policy packages path := by
  have each (package : InstalledPackage) (files : List InstalledFile) :
      ((files.filterMap (package.claim? policy)).filter (·.path = path)).map (·.key) =
        (files.filter (package.Claims policy path ·)).map fun _ => package.record.key := by
    induction files with
    | nil => rfl
    | cons file files ih =>
      by_cases same : Path.normalize file.path = path
      · subst same
        rw [List.filterMap_cons, package.claim?_eq_ite]
        by_cases claims : package.Claims policy (Path.normalize file.path) file <;>
          simp [claims, ih]
      · have noClaim : ¬ package.Claims policy path file := fun claims => same claims.2.2.2.1
        rw [List.filterMap_cons, package.claim?_eq_ite,
          List.filter_cons_of_neg (by simpa using noClaim), ← ih]
        by_cases claims : package.Claims policy (Path.normalize file.path) file <;>
          simp [claims, same]
  simp only [claimants, claims, claimsOn, List.filter_flatMap, List.map_flatMap, each]

namespace OwnershipMap

/-- A path has no owner exactly when there is no claim on it; otherwise its owner is the first key
of the last run of claims. -/
theorem owner?_resolve_iff_beginsLastRun (policy : ExclusionPolicy)
    (packages : List InstalledPackage) (path : String) :
    ((resolve policy packages).owner? path = none ↔ claimsOn policy packages path = []) ∧
    ∀ key, (resolve policy packages).owner? path = some key ↔
      BeginsLastRun (claimsOn policy packages path) key := by
  rw [owner?_resolve, claimants_eq_claimsOn]
  exact ⟨foldl_settleOwner_eq_none_iff, fun _ => foldl_settleOwner_eq_some_iff⟩

end OwnershipMap

end ImageAudit
