import ImageAudit.Classifier
import ImageAudit.Proofs.Chain

/-! # Modifications of a chain

A modification is a file that a layer above the base writes while that layer and the one below it
own the path. Both owners have records in a built chain, and the mode that the path had before is
the one from the closest lower layer that writes it, or zero when there is none.
-/

namespace ImageAudit.Chain

/-- The file that the layer at a position writes at a path. -/
def fileAt? (chain : Chain) (position : Nat) (path : String) : Option FileRecord :=
  chain[position]?.bind (·.changed[path]?)

def ownerAt? (chain : Chain) (position : Nat) (path : String) : Option PackageKey :=
  chain[position]?.bind (·.state.owned.owner? path)

def packageAt? (chain : Chain) (position : Nat) (key : PackageKey) : Option PackageRecord :=
  chain[position]?.bind (·.state.packages.record? key)

/-- The layer at a position writes a file at a path that goes from one owner to another, perhaps
the same. -/
structure Modifies (chain : Chain) (position : Nat) (path : String) (file : FileRecord)
    (previous current : PackageKey) : Prop where
  aboveBase : 1 ≤ position
  writes : chain.fileAt? position path = some file
  owned : chain.ownerAt? position path = some current
  ownedBelow : chain.ownerAt? (position - 1) path = some previous

/-- The mode of a path below the layer at a position. -/
inductive ModeBelow (chain : Chain) (position : Nat) (path : String) : UInt32 → Prop where
  /-- Given by the closest lower layer that writes the path. -/
  | written {source : Nat} {file : FileRecord} (below : source < position)
      (writes : chain.fileAt? source path = some file)
      (closest : ∀ between, source < between → between < position →
        chain.fileAt? between path = none) : ModeBelow chain position path file.mode
  /-- No lower layer writes the path. -/
  | unwritten (never : ∀ source < position, chain.fileAt? source path = none) :
      ModeBelow chain position path 0

section Mode

variable {chain : Chain} {position : Nat} {path : String}

private theorem ModeBelow.succ {mode : UInt32} (below : ModeBelow chain position path mode)
    (untouched : chain.fileAt? position path = none) :
    ModeBelow chain (position + 1) path mode := by
  cases below with
  | written lower writes closest =>
    refine .written (Nat.lt_succ_of_lt lower) writes ?_
    intro between after before
    rcases Nat.lt_succ_iff_lt_or_eq.mp before with inside | rfl
    · exact closest between after inside
    · exact untouched
  | unwritten never =>
    refine .unwritten ?_
    intro source before
    rcases Nat.lt_succ_iff_lt_or_eq.mp before with inside | rfl
    · exact never source inside
    · exact untouched

/-- The mode below a layer depends only on what the lower layers write at the path. -/
theorem ModeBelow.transfer {other : Chain} {mode : UInt32}
    (below : ModeBelow chain position path mode)
    (same : ∀ source < position, other.fileAt? source path = chain.fileAt? source path) :
    ModeBelow other position path mode := by
  cases below with
  | @written source file lower writes closest =>
    refine .written lower ((same source lower).trans writes) ?_
    intro between after before
    rw [same between before]
    exact closest between after before
  | unwritten never =>
    refine .unwritten ?_
    intro source before
    rw [same source before]
    exact never source before

/-- No path has two modes below a layer. -/
theorem ModeBelow.unique {first second : UInt32} (left : ModeBelow chain position path first)
    (right : ModeBelow chain position path second) : first = second := by
  cases left with
  | @written source file lower writes closest =>
    cases right with
    | @written source' file' lower' writes' closest' =>
      rcases Nat.lt_trichotomy source source' with before | rfl | after
      · rw [closest source' before lower'] at writes'
        cases writes'
      · rw [writes] at writes'
        cases writes'
        rfl
      · rw [closest' source after lower] at writes
        cases writes
    | unwritten never =>
      rw [never source lower] at writes
      cases writes
  | unwritten never =>
    cases right with
    | written lower' writes' _ =>
      rw [never _ lower'] at writes'
      cases writes'
    | unwritten _ => rfl

end Mode

private theorem modeBelow_reverse_take_succ (chain : Chain) (position : Nat) (path : String) :
    Classifier.modeBelow (chain.take (position + 1)).reverse path =
      match chain.fileAt? position path with
      | some file => file.mode
      | none => Classifier.modeBelow (chain.take position).reverse path := by
  have top : chain[position]?.toList.reverse.findSome? (·.changed[path]?) =
      chain.fileAt? position path := by
    unfold fileAt?
    cases chain[position]? with
    | none => rfl
    | some layer => simp
  unfold Classifier.modeBelow
  rw [List.take_add_one, List.reverse_append, List.findSome?_append, top]
  cases chain.fileAt? position path <;> rfl

/-- The walk down the lower layers finds the mode that the path has below the layer. -/
theorem modeBelow_reverse_take (chain : Chain) (position : Nat) (path : String) :
    ModeBelow chain position path (Classifier.modeBelow (chain.take position).reverse path) := by
  induction position with
  | zero => exact .unwritten fun source before => absurd before (Nat.not_lt_zero source)
  | succ position ih =>
    rw [modeBelow_reverse_take_succ]
    cases written : chain.fileAt? position path with
    | none => exact ih.succ written
    | some file =>
      refine .written (Nat.lt_succ_self position) written ?_
      intro between after before
      omega

/-- What a layer writes does not depend on the policy. -/
theorem fileAt?_build (policy : ExclusionPolicy) (links : List ChainLink) (position : Nat)
    (path : String) :
    fileAt? (build policy links) position path =
      links[position]?.bind (·.contents.changed[path]?) := by
  rw [fileAt?, getElem?_build]
  cases links[position]? <;> rfl

theorem closed_of_mem_build {policy : ExclusionPolicy} {links : List ChainLink}
    {record : LayerRecord} (member : record ∈ build policy links) : record.state.Closed := by
  obtain ⟨position, present⟩ := List.mem_iff_getElem?.mp member
  rw [getElem?_build] at present
  obtain ⟨link, _, rfl⟩ := Option.map_eq_some_iff.mp present
  exact closed_stateAfter policy _

/-- An owner in a built chain has a record in the same layer. -/
theorem exists_package_of_owner {policy : ExclusionPolicy} {links : List ChainLink}
    {position : Nat} {path : String} {key : PackageKey}
    (owned : ownerAt? (build policy links) position path = some key) :
    ∃ package, packageAt? (build policy links) position key = some package ∧
      package.key = key := by
  obtain ⟨record, present, owned⟩ := Option.bind_eq_some_iff.mp owned
  have member := List.mem_of_getElem? present
  obtain ⟨package, found, same⟩ := closed_of_mem_build member path key owned
  exact ⟨package, by rw [packageAt?, present, Option.bind_some, found], same⟩

section Sample

def sampleTool : InstalledPackage where
  record := ⟨"tool", "1.0", "1.el9", "x86_64", none, standardVendor, 100⟩
  files := [⟨"/usr/bin/tool", 0o100755, .empty⟩]
  dirNames := ["/usr/bin/"]

/-- A layer that writes one file. -/
def sampleLink (index : Nat) (packages : Option (List InstalledPackage)) (path : String) :
    ChainLink where
  layer := ⟨index, "sha256:5a", "", 0⟩
  diffId := unknownDiffId
  contents := ⟨(∅ : PathMap FileRecord).insert path ⟨path, 0o755⟩, none, packages, .empty⟩

/-- The base installs the program, and two layers up it is written again without a database. -/
def sampleLinks : List ChainLink :=
  [sampleLink 0 (some [sampleTool]) "usr/bin/tool", sampleLink 1 none "srv/data",
    sampleLink 2 none "usr/bin/tool"]

end Sample

end ImageAudit.Chain
