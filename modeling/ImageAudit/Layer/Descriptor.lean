import ImageAudit.Text

/-! # Naming a layer

A layer is named by its position and its digest. Digests repeat within an image, positions do not,
so the two together tell any two layers apart.
-/

namespace ImageAudit

/-- A layer as the manifest lists it. -/
structure LayerDescriptor where
  index : Nat
  digest : String
  mediaType : String
  /-- The stated size of the stored blob. -/
  size : Int64
  deriving DecidableEq

/-- The name of a layer: its position, two digits at least, a dash and its digest. -/
def LayerDescriptor.id (layer : LayerDescriptor) : String :=
  Text.twoDigits layer.index ++ "-" ++ layer.digest

/-- The name of the uncompressed layer where the config lists none. -/
def unknownDiffId : String := "unknown"

end ImageAudit
