import ImageAudit.Exclusion

/-! # Wider policies

A path is left out when some rule covers it, whichever rule is found first. So a policy that has
every rule of another, in any order and among further ones, leaves out at least the same paths.
-/

namespace ImageAudit.ExclusionPolicy

/-- The order of the rules does not show in whether a path is left out. -/
theorem excludes_iff (policy : ExclusionPolicy) (path : String) :
    policy.excludes path = true ↔
      path ∈ policy.paths ∨
      (∃ directory ∈ policy.directories, isWithin path directory = true) ∨
      ∃ rule ∈ policy.affixes, rule.covers path = true := by
  simp only [excludes, exclusionFor?, Option.orElse_eq_orElse, Option.orElse_eq_or,
    Option.isSome_or, Option.isSome_map, Bool.or_eq_true, List.find?_isSome, decide_eq_true_eq,
    exists_eq_right]

@[simp] theorem excludes_empty (path : String) : empty.excludes path = false := rfl

/-- Every rule of the first policy is one of the second. -/
structure Within (narrow wide : ExclusionPolicy) : Prop where
  paths : narrow.paths ⊆ wide.paths
  directories : narrow.directories ⊆ wide.directories
  affixes : narrow.affixes ⊆ wide.affixes

theorem Within.excludes {narrow wide : ExclusionPolicy} (within : narrow.Within wide)
    {path : String} (excluded : narrow.excludes path = true) : wide.excludes path = true := by
  rw [excludes_iff] at excluded ⊢
  rcases excluded with listed | ⟨directory, listed, covers⟩ | ⟨rule, listed, covers⟩
  · exact .inl (within.paths listed)
  · exact .inr (.inl ⟨directory, within.directories listed, covers⟩)
  · exact .inr (.inr ⟨rule, within.affixes listed, covers⟩)

end ImageAudit.ExclusionPolicy
