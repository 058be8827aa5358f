import ImageAudit.Layer.Contents
import ImageAudit.Layer.Descriptor

/-! # The chain of layers

The layers of an image are folded, lowest first, into one record each. A layer with a package
database starts a new package state; a layer without one keeps the state of the layer below it,
which is empty at the bottom. The origin of a state says where it was made, so two records share
their state exactly when the origins agree.
-/

namespace ImageAudit

/-- Where the package state of a record was made. -/
inductive StateOrigin where
  /-- No layer so far had a database. -/
  | bottom
  /-- From the database of the layer at this index. -/
  | database (layer : Nat)
  /-- Given for the layer at this index, from outside. -/
  | supplied (layer : Nat)
  deriving DecidableEq, Repr

/-- Who owns which path after a layer, and the packages it has installed. -/
structure PackageState where
  origin : StateOrigin
  owned : OwnershipMap
  packages : PackageSet

namespace PackageState

/-- The state below the lowest layer. -/
def empty : PackageState := ⟨.bottom, OwnershipMap.empty, PackageSet.empty⟩

/-- The state that the database of a layer gives. -/
def ofPackages (policy : ExclusionPolicy) (layer : Nat) (packages : List InstalledPackage) :
    PackageState :=
  ⟨.database layer, OwnershipMap.resolve policy packages, PackageSet.ofPackages packages⟩

end PackageState

/-- All that is known about one layer. -/
structure LayerRecord where
  index : Nat
  /-- Tells the layer from every other one of the image. -/
  layerId : String
  /-- The digest of the uncompressed layer, for the reader of a report. -/
  diffId : String
  hasDatabase : Bool
  changed : PathMap FileRecord
  state : PackageState

namespace LayerRecord

/-- Whether the two layers have one package state. -/
def sharesState (a b : LayerRecord) : Bool := a.state.origin = b.state.origin

def withPackages (record : LayerRecord) (packages : List InstalledPackage) : LayerRecord :=
  { record with
    state := ⟨.supplied record.index, record.state.owned, PackageSet.ofPackages packages⟩ }

end LayerRecord

/-- The records of an image's layers, lowest first. -/
abbrev Chain := List LayerRecord

/-- One layer on its way into the chain. -/
structure ChainLink where
  layer : LayerDescriptor
  diffId : String
  contents : LayerContents

namespace Chain

/-- The package state of the highest layer so far. -/
def topState (chain : Chain) : PackageState :=
  match chain.getLast? with
  | some record => record.state
  | none => PackageState.empty

/-- The package state after one more layer. -/
def stateAbove (policy : ExclusionPolicy) (chain : Chain) (link : ChainLink) : PackageState :=
  match link.contents.packages with
  | some packages => PackageState.ofPackages policy link.layer.index packages
  | none => chain.topState

def push (policy : ExclusionPolicy) (chain : Chain) (link : ChainLink) : Chain :=
  chain ++ [{
    index := link.layer.index
    layerId := link.layer.id
    diffId := link.diffId
    hasDatabase := link.contents.hasDatabase
    changed := link.contents.changed
    state := stateAbove policy chain link }]

def build (policy : ExclusionPolicy) (links : List ChainLink) : Chain :=
  links.foldl (push policy) []

end Chain

end ImageAudit
