import ImageAudit.Proofs.Layer.Descriptor
import ImageAudit.Proofs.Modification

/-! # The names in a chain

A record bears the name of its layer. The layers of a chain have a position each, so no two records
have one name, however often a digest repeats. A name that is met elsewhere, as that of a directory
or in a finding, leads back to the position and the digest of its layer.
-/

namespace ImageAudit.Chain

/-- Layers at different positions have different names. -/
theorem InOrder.nodup_names {links : List ChainLink} (ordered : InOrder links) :
    (links.map (·.layer.id)).Nodup := by
  have positions : (links.map (·.layer.index)).Nodup := ordered ▸ List.nodup_range
  refine List.pairwise_map.mpr ((List.pairwise_map.mp positions).imp ?_)
  intro lower upper apart same
  exact apart (LayerDescriptor.index_eq_of_id_eq same)

variable (policy : ExclusionPolicy) {links : List ChainLink}

/-- The records bear the names of their layers. -/
theorem map_layerId_build : (build policy links).map (·.layerId) = links.map (·.layer.id) := by
  apply List.ext_getElem?
  intro position
  rw [List.getElem?_map, List.getElem?_map, getElem?_build, Option.map_map]
  rfl

/-- A name is that of one position and one digest. In a chain no two records have one name, and the
name of a record is that of its position and of the digest of its layer alone. -/
theorem layerId_determines (ordered : InOrder links) :
    (∀ layer other : LayerDescriptor, layer.id = other.id ↔
      layer.index = other.index ∧ layer.digest = other.digest) ∧
    ((build policy links).map (·.layerId)).Nodup ∧
    ∀ position record link, (build policy links)[position]? = some record →
      links[position]? = some link → ∀ layer : LayerDescriptor,
        layer.id = record.layerId ↔ layer.index = position ∧ layer.digest = link.layer.digest := by
  have names : (build policy links).map (·.layerId) = links.map (·.layer.id) :=
    map_layerId_build policy
  refine ⟨fun layer other => LayerDescriptor.id_eq_iff, names ▸ ordered.nodup_names, ?_⟩
  intro position record link built present layer
  have named : record.layerId = link.layer.id := by
    have same := congrArg (·[position]?) names
    simpa [built, present] using same
  rw [named, LayerDescriptor.id_eq_iff, ordered.index present]

/-- The layers of the sample have one digest and three names. -/
theorem layerId_determines_sample :
    InOrder sampleLinks ∧ ((build .standard sampleLinks).map (·.layerId)).Nodup ∧
      ∀ layer : LayerDescriptor, layer.id = "02-sha256:5a" ↔
        layer.index = 2 ∧ layer.digest = "sha256:5a" := by
  have ordered : InOrder sampleLinks := rfl
  obtain ⟨-, apart, tells⟩ := layerId_determines .standard ordered
  exact ⟨ordered, apart, tells 2 _ _ rfl rfl⟩

end ImageAudit.Chain
