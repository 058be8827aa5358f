import ImageAudit.Chain
import ImageAudit.Classifier.Report

/-! # Judging modifications

A file that is owned in a layer and in the layer below it, and that the layer writes, is judged.
When the owner is the same package, the change came from elsewhere, unless the package was
installed again later; dropped set-id bits, packages of another platform and packages of another
vendor are let through. When the owner is another package, the package manager replaced it, and
platform and architecture must not get worse. The lowest layer is the base and is not judged.
-/

namespace ImageAudit

/-- The vendor that is trusted when no other is named. -/
def standardVendor : String := "Red Hat, Inc."

/-- What modifications are judged against. -/
structure Classifier where
  distTag : DistTag
  trustedVendor : String
  deriving DecidableEq, Repr

namespace Classifier

/-- The mode that the closest of the lower layers, highest first, gave the path; zero when none
wrote it. -/
def modeBelow (lower : List LayerRecord) (path : String) : UInt32 :=
  match lower.findSome? (fun layer => layer.changed[path]?) with
  | some file => file.mode
  | none => 0

/-- Whether a bit is set in the first mode and clear in the second. -/
def bitDropped (before after bit : UInt32) : Bool :=
  FileMode.has before bit && !FileMode.has after bit

/-- Whether a set-id bit is set in the first mode and clear in the second. -/
def setIdDropped (before after : UInt32) : Bool :=
  bitDropped before after FileMode.setUser || bitDropped before after FileMode.setGroup

/-- The verdict on a file that stays with its package. -/
def judgeSameOwner (classifier : Classifier) (modeBefore modeAfter : UInt32)
    (before after : PackageRecord) : Verdict :=
  if setIdDropped modeBefore modeAfter then .allowed .setIdBitsRemoved
  else if classifier.distTag.isKnown && !classifier.distTag.isIn after.release then
    .warned .releaseLacksDistTag
  else if after.vendor != classifier.trustedVendor && before.vendor != classifier.trustedVendor then
    .warned .untrustedVendor
  else if before.installTime < after.installTime then .allowed .reinstalled
  else .disallowed .modifiedOutsidePackageManager

/-- The verdict on a file that goes to another package. -/
def judgeNewOwner (classifier : Classifier) (before after : PackageRecord) : Verdict :=
  if classifier.distTag.isIn before.release && !classifier.distTag.isIn after.release then
    .disallowed .distTagRegression
  else if before.arch != after.arch then .disallowed .architectureChanged
  else .allowed .upgraded

/-- The finding for a file that a layer writes, when it is owned there and in the layer below.
`older` are the layers below that one, highest first. -/
def finding? (classifier : Classifier) (layer below : LayerRecord) (older : List LayerRecord)
    (path : String) (file : FileRecord) : Option Finding := do
  let current ← layer.state.owned.owner? path
  let previous ← below.state.owned.owner? path
  let after ← layer.state.packages.record? current
  let before ← below.state.packages.record? previous
  let verdict :=
    if current = previous then
      classifier.judgeSameOwner (modeBelow (below :: older) path) file.mode before after
    else classifier.judgeNewOwner before after
  return ⟨layer.index, layer.layerId, path, current, previous, verdict⟩

/-- The findings of one layer, in the order of the paths' bytes. -/
def layerFindings (classifier : Classifier) (layer below : LayerRecord)
    (older : List LayerRecord) : List Finding :=
  layer.changed.toList.filterMap fun (path, file) =>
    classifier.finding? layer below older path file

/-- The findings of the layers above `lower`, which holds the layers below, highest first. -/
def findingsAbove (classifier : Classifier) : List LayerRecord → Chain → List Finding
  | _, [] => []
  | [], base :: rest => findingsAbove classifier [base] rest
  | below :: older, layer :: rest =>
    classifier.layerFindings layer below older ++
      findingsAbove classifier (layer :: below :: older) rest

def classify (classifier : Classifier) (chain : Chain) : Report :=
  ⟨classifier.distTag.text, chain.length, classifier.findingsAbove [] chain⟩

end Classifier

end ImageAudit
