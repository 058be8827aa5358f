import ImageAudit.Proofs.FileTree
import ImageAudit.Proofs.Layer.Descriptor
import ImageAudit.Staging

/-! # What making temporary directories changes

Once the directory of a run is made, its path leads to it until it is removed. The directory of a
layer is made directly in it, under the name of the layer, and nothing else is.
-/

namespace ImageAudit.Staging

open FileTree

variable {staging : Staging} {files made tree : FileTree} {layer : LayerDescriptor}

/-- The directory of the run is made under a name that is none of the components of the path. -/
def IsNewTo (staging : Staging) (path : String) : Prop :=
  ∀ name ∈ (placeOf staging.path).getLast?, name ∉ components path

/-- A fault in making the directory of a layer. -/
def unprepared (staging : Staging) (layer : LayerDescriptor) (fault : PathFault) : Failure :=
  .staging ("Failed to create " ++ staging.layerDirectory layer ++ ": " ++ fault.message)

theorem make_eq_ok (created : staging.make files = (.ok (), made)) :
    ∃ place name, (placeOf staging.path).getLast? = some name ∧
      files.node? (place ++ [name]) = none ∧
      made = files.put (place ++ [name]) .directory ∧
      ∀ other, SameOutside (place ++ [name]) files other →
        other.node? (place ++ [name]) = some .directory →
        other.follow (components staging.path) = .ok (place ++ [name]) := by
  rw [make, Stateful.adapt_apply] at created
  obtain ⟨succeeded, same⟩ := Prod.mk.inj created
  exact makeDirectoryAt_eq_ok (Prod.ext (Fallible.mapError_eq_ok_iff.mp succeeded) same)

section Prepare

variable {root : Place} (noSlash : '/' ∉ layer.digest.toList)
variable (reached : tree.follow (components staging.path) = .ok root)
variable (directory : tree.node? root = some .directory)
include noSlash reached directory

theorem prepare_apply : staging.prepare layer tree =
    match components? (staging.layerDirectory layer) with
    | .error fault => (.error (staging.unprepared layer fault), tree)
    | .ok _ =>
      if maxNameSize < layer.id.utf8ByteSize then
        (.error (staging.unprepared layer .tooLong), tree)
      else ((directoryAt tree (root ++ [layer.id])).1.mapError (staging.unprepared layer),
        (directoryAt tree (root ++ [layer.id])).2) := by
  have ensured :=
    ensureDirectories_below (LayerDescriptor.isName_id noSlash) reached directory
  rw [prepare, Stateful.adapt_apply, layerDirectory, ensured]
  cases components? (Path.below staging.path layer.id) with
  | error fault => rfl
  | ok pieces =>
    dsimp only
    split_ifs <;> rfl

/-- The directory of a layer lies in that of the run. -/
theorem eq_of_prepare_eq_ok {place : Place} {between : FileTree}
    (prepared : staging.prepare layer tree = (.ok place, between)) :
    place = root ++ [layer.id] := by
  rw [prepare_apply noSlash reached directory] at prepared
  split at prepared
  · cases prepared
  · split_ifs at prepared
    · cases prepared
    · have made := Fallible.mapError_eq_ok_iff.mp (Prod.mk.inj prepared).1
      unfold directoryAt at made
      split at made <;> cases made <;> rfl

theorem sameOutside_prepare :
    SameOutside (root ++ [layer.id]) tree (staging.prepare layer tree).2 := by
  rw [prepare_apply noSlash reached directory]
  split
  · exact .refl tree
  · split_ifs
    · exact .refl tree
    · exact sameOutside_directoryAt tree _

theorem below_prepare :
    (staging.prepare layer tree).2.below (root ++ [layer.id]) =
      tree.below (root ++ [layer.id]) := by
  rw [prepare_apply noSlash reached directory]
  split
  · rfl
  · split_ifs
    · rfl
    · exact below_directoryAt tree _

/-- Whether the directory can be made is decided by what lies there. -/
theorem prepare_congr {other : FileTree}
    (reached' : other.follow (components staging.path) = .ok root)
    (directory' : other.node? root = some .directory)
    (same : other.node? (root ++ [layer.id]) = tree.node? (root ++ [layer.id])) :
    (staging.prepare layer other).1 = (staging.prepare layer tree).1 := by
  rw [prepare_apply noSlash reached directory, prepare_apply noSlash reached' directory']
  cases components? (staging.layerDirectory layer) with
  | error fault => rfl
  | ok pieces =>
    dsimp only
    split_ifs
    · rfl
    · exact congrArg (Except.mapError _) (directoryAt_congr same)

end Prepare

end ImageAudit.Staging
