import ImageAudit.Layer.Descriptor

/-! # The config of an image

The part of an image's config that is used: the platform it was built for, the defaults of its
containers, and the digests of its uncompressed layers.
-/

namespace ImageAudit

structure ContainerDefaults where
  /-- In the order of first appearance. -/
  labels : Option (List (String × String))
  command : Option (List String)
  user : Option String
  deriving DecidableEq, Repr

structure RootFileSystem where
  kind : String
  /-- The digests of the uncompressed layers, lowest first. -/
  diffIds : List String
  deriving DecidableEq, Repr

structure ImageConfig where
  architecture : String
  os : String
  created : Option String
  container : ContainerDefaults
  rootFileSystem : RootFileSystem
  deriving DecidableEq, Repr

namespace ImageConfig

/-- The digest of the uncompressed layer at a position. -/
def diffId (config : ImageConfig) (index : Nat) : String :=
  config.rootFileSystem.diffIds.getD index unknownDiffId

end ImageConfig

end ImageAudit
