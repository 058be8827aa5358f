import ImageAudit.Context
import ImageAudit.Image.Layout
import ImageAudit.Layer.Scan
import ImageAudit.Schedule
import ImageAudit.Settings
import ImageAudit.Staging

/-! # The check

The layers of an image are scanned side by side and then taken together in order: into the chain,
whose owners the classifier compares, and into the os-release text, which gives the platform. What a
scan yields depends on its layer and on what lies in the directory of the layer. Where each layer
has a directory of its own, neither the limit on scans nor the order in which they end shows in the
report. When a layer fails, the scans that still run are told to stop.
-/

namespace ImageAudit.Audit

/-- A step of a run, among the files that it reads and makes. -/
abbrev Run := ExceptT Failure (StateM FileTree)

/-- What a run works with. -/
structure Job where
  context : Context
  settings : Settings
  image : ImageLayout
  staging : Staging

namespace Job

/-- What one layer contributes, unless the scan is told to stop. -/
def scanLayer (job : Job) (signal : StopSignal) (layer : LayerDescriptor) : Run LayerContents := do
  job.context.checkpoint layer.id
  if signal = .before then throw .cancelled
  let place ← job.staging.prepare layer
  let files ← get
  let stream ← job.image.openLayer files layer
  let site : Layer.ScanSite := ⟨layer.id, job.staging.layerDirectory layer, signal⟩
  let (contents, staged) := Layer.scan site stream (files.below place)
  set (files.withBelow place staged)
  contents

/-- A layer with what it contributes. -/
def link (job : Job) (signal : StopSignal) (layer : LayerDescriptor) : Run ChainLink := do
  return ⟨layer, job.image.config.diffId layer.index, ← job.scanLayer signal layer⟩

/-- The signal that reaches a scan before it begins or when it has come so far. -/
def interruption : Nat → StopSignal
  | 0 => .before
  | moment + 1 => .fromRead moment

/-- The platform that the layers together show. -/
def distTag (links : List ChainLink) : DistTag :=
  (links.foldl (fun tracker link => tracker.apply link.contents.osRelease)
    OsReleaseTracker.empty).distTag

/-- The report on scanned layers, lowest first. -/
def report (job : Job) (links : List ChainLink) : Report :=
  Classifier.classify ⟨distTag links, job.settings.trustedVendor⟩
    (Chain.build job.settings.exclusions links)

/-- The report when the layers are scanned one after the other. -/
def evaluateInOrder (job : Job) : Run Report := do
  return job.report (← job.image.layers.mapM (job.link .never))

/-- The report when the layers are scanned side by side and end as `choose` says. -/
def evaluate (job : Job) (choose : Nat → Nat) : Run Report := do
  let limit := job.settings.maxParallelLayers.toNat
  let perform (layer : LayerDescriptor) := (job.link .never layer).run
  let interrupt (moment : Nat) (layer : LayerDescriptor) := (job.link (interruption moment) layer).run
  return job.report (← ExceptT.mk (Schedule.run limit choose perform interrupt job.image.layers))

end Job

/-- A whole run. Its directory is made anew and removed in the end. -/
def evaluate (context : Context) (settings : Settings) (image : ImageLayout) (staging : Staging)
    (choose : Nat → Nat) : Run Report := do
  context.checkpoint "start"
  staging.make
  let job : Job := ⟨context, settings, image, staging⟩
  let outcome : Except Failure Report ← (job.evaluate choose).run
  modify staging.remove
  outcome

def validate (context : Context) (settings : Settings) (image : ImageLayout) (staging : Staging)
    (choose : Nat → Nat) : Run Bool := do
  return (← evaluate context settings image staging choose).passed

/-- The settings and the image of a run, if the settings can be used and the image can be opened. -/
def openImage (settings : Settings) (files : FileTree) (root : String) :
    Except Failure (Settings × ImageLayout) := do
  let settings ← settings.validate
  return (settings, ← ImageLayout.openImage files root settings.verifyDigests)

end ImageAudit.Audit
