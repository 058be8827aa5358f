import ImageAudit.Text

/-! # Paths that are never examined

A policy lists exact paths, directories, and pairs of a beginning and an end. A path that any rule
covers has no owner, so it can have no finding: a further rule can turn a failing image into a
passing one, never the reverse. Directory rules compare text, so `etc` also covers `etcd/member`.
-/

namespace ImageAudit

/-- Covers the paths that begin and end as stated. -/
structure AffixRule where
  start : String
  suffix : String
  deriving DecidableEq, Repr

/-- The rule that covers a path, as it stands in the policy. -/
inductive Exclusion where
  | path (path : String)
  | directory (directory : String)
  | affixes (rule : AffixRule)
  deriving DecidableEq, Repr

/-- Which paths are left out. -/
structure ExclusionPolicy where
  paths : List String
  directories : List String
  affixes : List AffixRule
  deriving DecidableEq, Repr

/-- Whether the path begins and ends as the rule states; the two may overlap. -/
def AffixRule.covers (rule : AffixRule) (path : String) : Bool :=
  Text.startsWith path rule.start && Text.endsWith path rule.suffix

/-- Whether the path begins with the directory's text, trailing slashes left out. A directory that
is all slashes covers nothing. -/
def isWithin (path directory : String) : Bool :=
  let trimmed := Text.dropTrailing '/' directory
  trimmed != "" && Text.startsWith path trimmed

namespace ExclusionPolicy

def empty : ExclusionPolicy := ⟨[], [], []⟩

/-- Host-specific and generated files. `etc/` and `run/` are no normalized paths and so cover
nothing. -/
def standard : ExclusionPolicy where
  paths := ["etc/resolv.conf", "etc/hostname", "etc", "etc/", "run", "run/"]
  directories := ["etc", "var", "run", "usr/lib/.build-id", "usr/tmp"]
  affixes := [⟨"usr/", ".cache"⟩]

/-- The first rule that covers the path: exact paths, then directories, then affixes. -/
def exclusionFor? (policy : ExclusionPolicy) (path : String) : Option Exclusion :=
  ((policy.paths.find? (· = path)).map Exclusion.path) <|>
    ((policy.directories.find? (isWithin path)).map Exclusion.directory) <|>
    ((policy.affixes.find? (·.covers path)).map Exclusion.affixes)

def excludes (policy : ExclusionPolicy) (path : String) : Bool :=
  (policy.exclusionFor? path).isSome

/-- The rules of both policies. -/
def append (base more : ExclusionPolicy) : ExclusionPolicy where
  paths := base.paths ++ more.paths
  directories := base.directories ++ more.directories
  affixes := base.affixes ++ more.affixes

end ExclusionPolicy

end ImageAudit
