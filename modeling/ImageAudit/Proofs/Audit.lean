import ImageAudit.Audit
import ImageAudit.Proofs.Schedule
import ImageAudit.Proofs.Staging

/-! # Scanning side by side is scanning in order

Each layer has a directory of its own in the directory of the run, and its blob lies elsewhere. So
what a layer contributes does not depend on which other layers were scanned before, and the report
of a run is that of scanning the layers one after the other, however many are scanned at a time and
whichever ends first. Where layers fail, the run fails as the lowest of them does, though others may
have failed before it.
-/

namespace ImageAudit

/-- The layers have the positions that they have in the list. -/
def ImageLayout.IsNumbered (image : ImageLayout) : Prop :=
  image.layers.map (·.index) = List.range image.layers.length

namespace ImageLayout

/-- The layers of an image that was opened are numbered, as a run needs them. -/
theorem isNumbered_of_openImage {files : FileTree} {root : String} {verifiesDigests : Bool}
    {image : ImageLayout} (opened : openImage files root verifiesDigests = .ok image) :
    image.IsNumbered := by
  have opened := Fallible.mapError_eq_ok_iff.mp opened
  obtain ⟨_, -, opened⟩ := Fallible.bind_eq_ok_iff.mp opened
  obtain ⟨index, -, opened⟩ := Fallible.bind_eq_ok_iff.mp opened
  cases first : index.manifests.head? with
  | none =>
    rw [first] at opened
    cases opened
  | some manifest =>
    rw [first] at opened
    obtain ⟨manifest, -, opened⟩ := Fallible.bind_eq_ok_iff.mp opened
    obtain ⟨config, -, opened⟩ := Fallible.bind_eq_ok_iff.mp opened
    cases opened
    simp only [IsNumbered, ImageManifest.layerDescriptors, List.map_map, List.length_map,
      List.length_zipIdx, List.range_eq_range']
    exact List.zipIdx_map_snd ..

theorem IsNumbered.eq_of_index_eq {image : ImageLayout} (numbered : image.IsNumbered)
    {layer other : LayerDescriptor} (member : layer ∈ image.layers) (member' : other ∈ image.layers)
    (same : layer.index = other.index) : layer = other :=
  List.inj_on_of_nodup_map (numbered ▸ List.nodup_range) member member' same

theorem IsNumbered.nodup {image : ImageLayout} (numbered : image.IsNumbered) :
    image.layers.Nodup :=
  .of_map _ (numbered ▸ List.nodup_range)

/-- A layer is opened alike in trees that are the same outside a directory whose name is none of the
components of the path of its blob. -/
theorem openLayer_eq {image : ImageLayout} {layer : LayerDescriptor} {tree other : FileTree}
    {place : Place} {name : String}
    (same : FileTree.SameOutside (place ++ [name]) tree other)
    (fresh : name ∉ FileTree.components (blobPath image.root layer.digest)) :
    image.openLayer other layer = image.openLayer tree layer := by
  rw [openLayer, openLayer, same.find? fresh]

end ImageLayout

namespace Audit

open FileTree

namespace Job

variable {job : Job} {files made tree other : FileTree} {layer : LayerDescriptor} {root : Place}

/-- The site at which a layer is scanned to its end. -/
def site (job : Job) (layer : LayerDescriptor) : Layer.ScanSite :=
  ⟨layer.id, job.staging.layerDirectory layer, .never⟩

theorem scanLayer_apply (free : job.context = .free) (layer : LayerDescriptor) (tree : FileTree) :
    job.scanLayer .never layer tree =
      match job.staging.prepare layer tree with
      | (.error failure, between) => (.error failure, between)
      | (.ok place, between) =>
        match job.image.openLayer between layer with
        | .error failure => (.error failure, between)
        | .ok stream =>
          ((Layer.scan (job.site layer) stream (between.below place)).1,
            between.withBelow place
              (Layer.scan (job.site layer) stream (between.below place)).2) := by
  unfold scanLayer
  rw [free, Stateful.bind_apply, Stateful.lift_apply]
  dsimp only [Context.checkpoint, Context.free]
  rw [if_neg Bool.false_ne_true, if_neg nofun, if_neg nofun]
  dsimp only
  rw [Stateful.bind_apply]
  rcases job.staging.prepare layer tree with ⟨failure | place, between⟩
  · rfl
  · dsimp only
    rw [Stateful.bind_apply, Stateful.get_apply]
    dsimp only
    rw [Stateful.bind_apply, Stateful.lift_apply]
    cases job.image.openLayer between layer with
    | error failure => rfl
    | ok stream =>
      dsimp only [site]
      rw [Stateful.bind_apply, Stateful.set_apply]
      exact Stateful.lift_apply ..

theorem link_apply (layer : LayerDescriptor) (tree : FileTree) :
    (job.link .never layer).run tree =
      ((job.scanLayer .never layer tree).1.map
        fun contents => ⟨layer, job.image.config.diffId layer.index, contents⟩,
        (job.scanLayer .never layer tree).2) := by
  unfold link
  rw [ExceptT.run, Stateful.bind_apply]
  rcases job.scanLayer .never layer tree with ⟨_ | _, _⟩ <;> rfl

/-- The directory of the run is there, and nothing outside it has changed since before it was
made. -/
structure Stands (job : Job) (files : FileTree) (root : Place) (tree : FileTree) : Prop where
  outside : SameOutside root files tree
  directory : tree.node? root = some .directory
  reached : tree.follow (components job.staging.path) = .ok root

/-- The trees have the same in the directory of the layer. -/
structure SameInside (root : Place) (layer : LayerDescriptor) (tree other : FileTree) : Prop where
  node? : other.node? (root ++ [layer.id]) = tree.node? (root ++ [layer.id])
  below : other.below (root ++ [layer.id]) = tree.below (root ++ [layer.id])

section Scan

variable (free : job.context = .free) (noSlash : '/' ∉ layer.digest.toList)
variable (stands : job.Stands files root tree)
include free noSlash stands

/-- Scanning a layer changes nothing outside its directory. -/
theorem sameOutside_scanLayer :
    SameOutside (root ++ [layer.id]) tree (job.scanLayer .never layer tree).2 := by
  have made := Staging.sameOutside_prepare noSlash stands.reached stands.directory
  rw [scanLayer_apply free]
  rcases prepared : job.staging.prepare layer tree with ⟨failure | place, between⟩
  · rwa [prepared] at made
  · rw [prepared] at made
    obtain rfl := Staging.eq_of_prepare_eq_ok noSlash stands.reached stands.directory prepared
    dsimp only
    cases job.image.openLayer between layer with
    | error failure => exact made
    | ok stream => exact made.trans (.withBelow between _ _)

/-- What a layer contributes is decided by what lies in its directory and outside the directory of
the run. -/
theorem scanLayer_congr {above : Place} {name : String} (named : root = above ++ [name])
    (fresh : name ∉ components (ImageLayout.blobPath job.image.root layer.digest))
    (stands' : job.Stands files root other) (inside : SameInside root layer tree other) :
    (job.scanLayer .never layer other).1 = (job.scanLayer .never layer tree).1 := by
  have prepares := Staging.prepare_congr noSlash stands.reached stands.directory stands'.reached
    stands'.directory inside.node?
  have below := (Staging.below_prepare noSlash stands'.reached stands'.directory).trans
    (inside.below.trans (Staging.below_prepare noSlash stands.reached stands.directory).symm)
  have outside := stands.outside.trans
    ((Staging.sameOutside_prepare noSlash stands.reached stands.directory).mono
      (List.prefix_append ..))
  have outside' := stands'.outside.trans
    ((Staging.sameOutside_prepare noSlash stands'.reached stands'.directory).mono
      (List.prefix_append ..))
  rw [named] at outside outside'
  have opens := (ImageLayout.openLayer_eq outside' fresh).trans
    (ImageLayout.openLayer_eq outside fresh).symm
  rw [scanLayer_apply free, scanLayer_apply free]
  rcases prepared : job.staging.prepare layer tree with ⟨outcome, between⟩
  rcases prepared' : job.staging.prepare layer other with ⟨outcome', between'⟩
  rw [prepared, prepared'] at prepares below opens
  cases (prepares : outcome' = outcome)
  cases outcome with
  | error failure => rfl
  | ok place =>
    obtain rfl := Staging.eq_of_prepare_eq_ok noSlash stands.reached stands.directory prepared
    dsimp only at below opens ⊢
    rw [opens, below]
    cases job.image.openLayer between layer <;> rfl

end Scan

/-- What a layer contributes when it is scanned alone, once the directory of the run is made. -/
def alone (job : Job) (made : FileTree) (layer : LayerDescriptor) : Except Failure ChainLink :=
  ((job.link .never layer).run made).1

/-- Nothing that the scan of a layer depends on has changed since the directory of the run was
made. -/
structure Untouched (files made : FileTree) (root : Place) (layer : LayerDescriptor)
    (tree : FileTree) : Prop where
  outside : SameOutside root files tree
  directory : tree.node? root = some .directory
  inside : SameInside root layer made tree

/-- The layers of an image are scanned apart from each other. -/
theorem apart_link (free : job.context = .free) (numbered : job.image.IsNumbered)
    (noSlash : ∀ layer ∈ job.image.layers, '/' ∉ layer.digest.toList)
    (fresh : ∀ layer ∈ job.image.layers,
      job.staging.IsNewTo (ImageLayout.blobPath job.image.root layer.digest))
    (created : job.staging.make files = (.ok (), made)) :
    ∃ root, Schedule.Apart (fun layer => (job.link .never layer).run) (job.alone made)
        (Untouched files made root) job.image.layers ∧
      ∀ layer, Untouched files made root layer made := by
  obtain ⟨above, name, last, absent, rfl, leads⟩ := Staging.make_eq_ok created
  have outside := SameOutside.put files (above ++ [name]) .directory
  have directory : (files.put (above ++ [name]) .directory).node? (above ++ [name]) =
      some .directory := node?_put_self files (List.concat_ne_nil name above)
  have stands {layer : LayerDescriptor} {tree : FileTree}
      (untouched : Untouched files (files.put (above ++ [name]) .directory) (above ++ [name]) layer
        tree) : job.Stands files (above ++ [name]) tree :=
    ⟨untouched.outside, untouched.directory,
      leads tree untouched.outside untouched.directory⟩
  have start (layer : LayerDescriptor) : Untouched files (files.put (above ++ [name]) .directory)
      (above ++ [name]) layer (files.put (above ++ [name]) .directory) :=
    ⟨outside, directory, rfl, rfl⟩
  refine ⟨above ++ [name], ⟨?_, ?_⟩, start⟩
  · intro layer member tree untouched
    have same := scanLayer_congr free (noSlash layer member) (stands (start layer)) rfl
      (fresh layer member name last) (stands untouched) untouched.inside
    rw [alone, link_apply, link_apply, same]
  · intro layer member other member' differs tree untouched untouched'
    have same := sameOutside_scanLayer free (noSlash layer member) (stands untouched)
    have apart {layer other : LayerDescriptor} (member : layer ∈ job.image.layers)
        (member' : other ∈ job.image.layers) (differs : other ≠ layer) :
        ¬ above ++ [name] ++ [layer.id] <+: above ++ [name] ++ [other.id] := by
      intro inside
      have ids := List.append_cancel_left (inside.eq_of_length (by simp))
      exact differs (numbered.eq_of_index_eq member' member
        (LayerDescriptor.index_eq_of_id_eq (List.singleton_inj.mp ids).symm))
    rw [link_apply]
    exact ⟨untouched'.outside.trans (same.mono (List.prefix_append ..)),
      (same.node? _ (not_prefix_concat _ _)).trans untouched'.directory,
      (same.node? _ (apart member member' differs)).trans untouched'.inside.node?,
      (same.below _ (apart member member' differs) (apart member' member differs.symm)).trans
        untouched'.inside.below⟩

theorem evaluateInOrder_apply (job : Job) (tree : FileTree) :
    (job.evaluateInOrder tree).1 =
      ((job.image.layers.mapM (job.link .never)).run tree).1.map job.report := by
  unfold evaluateInOrder
  rw [Stateful.bind_apply, ExceptT.run]
  rcases job.image.layers.mapM (job.link .never) tree with ⟨_ | _, _⟩ <;> rfl

theorem evaluate_apply (job : Job) (choose : Nat → Nat) (tree : FileTree) :
    (job.evaluate choose tree).1 =
      (Schedule.run job.settings.maxParallelLayers.toNat choose
        (fun layer => (job.link .never layer).run)
        (fun moment layer => (job.link (interruption moment) layer).run)
        job.image.layers tree).1.map job.report := by
  unfold evaluate
  rw [Stateful.bind_apply, ExceptT.mk]
  split <;> rename_i ran <;> rw [ran] <;> rfl

end Job

/-- A run that nothing stops gives what its layers give, once its directory is made. -/
theorem evaluate_free (settings : Settings) (image : ImageLayout) {staging : Staging}
    {files made : FileTree} (choose : Nat → Nat)
    (created : staging.make files = (.ok (), made)) :
    (evaluate .free settings image staging choose files).1 =
      ((⟨.free, settings, image, staging⟩ : Job).evaluate choose made).1 := by
  unfold evaluate
  rw [Stateful.bind_apply, Stateful.lift_apply]
  dsimp only [Context.checkpoint, Context.free]
  rw [if_neg Bool.false_ne_true, if_neg nofun]
  dsimp only
  rw [Stateful.bind_apply, created]
  dsimp only
  rw [Stateful.bind_apply]
  rw [Stateful.liftM_apply]
  dsimp only
  rw [Stateful.bind_apply, Stateful.modify_apply]
  dsimp only
  rw [Stateful.lift_apply]
  rfl

section Order

variable (settings : Settings) {image : ImageLayout} {staging : Staging} {files made : FileTree}
variable (noSlash : ∀ layer ∈ image.layers, '/' ∉ layer.digest.toList)
variable (fresh : ∀ layer ∈ image.layers,
  staging.IsNewTo (ImageLayout.blobPath image.root layer.digest))
variable (created : staging.make files = (.ok (), made))
include noSlash fresh created

/-- The outcome of a run, from what each layer contributes when it is scanned alone. -/
theorem evaluate_eq_mapM (numbered : image.IsNumbered) (choose : Nat → Nat) :
    let job : Job := ⟨.free, settings, image, staging⟩
    (evaluate .free settings image staging choose files).1 =
      (image.layers.mapM (job.alone made)).map job.report := by
  intro job
  have free : job.context = .free := rfl
  obtain ⟨root, apart, untouched⟩ := Job.apart_link free numbered noSlash fresh created
  have scanned := Schedule.run_eq_mapM apart numbered.nodup (fun layer _ => untouched layer)
    settings.maxParallelLayers.toNat choose fun moment layer =>
      (job.link (Job.interruption moment) layer).run
  exact (evaluate_free settings image choose created).trans
    ((job.evaluate_apply choose made).trans (congrArg _ scanned))

/-- On an image that was opened it makes no difference how many layers are scanned at a time, nor
which of them ends first. -/
theorem evaluate_eq_of_openImage {opened : FileTree} {root : String} {verifiesDigests : Bool}
    (found : ImageLayout.openImage opened root verifiesDigests = .ok image) (limit : UInt64)
    (choose choose' : Nat → Nat) :
    (evaluate .free { settings with maxParallelLayers := limit } image staging choose files).1 =
      (evaluate .free settings image staging choose' files).1 := by
  have numbered := ImageLayout.isNumbered_of_openImage found
  rw [evaluate_eq_mapM settings noSlash fresh created numbered]
  exact evaluate_eq_mapM _ noSlash fresh created numbered choose

end Order

/-- What a run gives does not depend on how many layers are scanned at a time or on which ends
first. It is what scanning the layers one after the other gives: the failure of the lowest layer
that fails, or else the report on what the layers contribute, in order.

The layers of every image that was opened are numbered (`ImageLayout.isNumbered_of_openImage`). That
the name of the run's directory, which is picked at random, is `fresh` rules out that a blob is
looked for inside it: were the blobs beside it, a layer with the digest `rpm-layers-x:00-sha256:a`
would find a directory there once the layer `00-sha256:a` was scanned, and nothing before. -/
theorem evaluate_in_order (settings : Settings) {image : ImageLayout} {staging : Staging}
    {files made : FileTree} (choose : Nat → Nat) (numbered : image.IsNumbered)
    (noSlash : ∀ layer ∈ image.layers, '/' ∉ layer.digest.toList)
    (fresh : ∀ layer ∈ image.layers,
      staging.IsNewTo (ImageLayout.blobPath image.root layer.digest))
    (created : staging.make files = (.ok (), made)) :
    let job : Job := ⟨.free, settings, image, staging⟩
    let outcome := (evaluate .free settings image staging choose files).1
    outcome = (job.evaluateInOrder made).1 ∧
      (∀ failure, outcome = .error failure ↔
        ∃ before layer after, image.layers = before ++ layer :: after ∧
          (∀ earlier ∈ before, ∃ link, job.alone made earlier = .ok link) ∧
          job.alone made layer = .error failure) ∧
      ∀ report, outcome = .ok report ↔
        ∃ links, List.Forall₂ (fun layer link => job.alone made layer = .ok link)
          image.layers links ∧ report = job.report links := by
  intro job outcome
  have free : job.context = .free := rfl
  have gives : outcome = (image.layers.mapM (job.alone made)).map job.report :=
    evaluate_eq_mapM settings noSlash fresh created numbered choose
  obtain ⟨root, apart, untouched⟩ := Job.apart_link free numbered noSlash fresh created
  have inOrder := apart.mapM_eq numbered.nodup fun layer _ => untouched layer
  refine ⟨?_, fun failure => ?_, fun report => ?_⟩
  · rw [gives, Job.evaluateInOrder_apply, ← inOrder]
  · rw [gives, ← Fallible.mapM_eq_error_iff]
    cases image.layers.mapM (job.alone made) <;> simp [Except.map]
  · rw [gives]
    simp only [← Fallible.mapM_eq_ok_iff]
    cases image.layers.mapM (job.alone made) <;> simp [Except.map, eq_comm]

section Sample

/-- A directory for temporary files, and the blobs of an image of which the archive that `b` names
is missing. -/
def sampleFiles : FileTree :=
  ((FileTree.empty.addDirectory "/tmp").addFile "/image/blobs/sha256/a" []).addFile
    "/image/blobs/sha256/c" []

def sampleImage : ImageLayout where
  root := "/image"
  config := ⟨"", "", none, ⟨none, none, none⟩, ⟨"", []⟩⟩
  layers := [⟨0, "sha256:a", "", 0⟩, ⟨1, "sha256:b", "", 0⟩, ⟨2, "sha256:c", "", 0⟩]
  verifiesDigests := false

def sampleStaging : Staging := .under "/tmp" "x"

/-- The files once the directory of the run is made. -/
def sampleMade : FileTree := sampleFiles.put ["tmp", "rpm-layers-x"] .directory

/-- However the layers are scanned, the run fails as the layer whose archive is missing does. -/
theorem evaluate_in_order_sample :
    sampleImage.IsNumbered ∧ (∀ layer ∈ sampleImage.layers, '/' ∉ layer.digest.toList) ∧
      (∀ layer ∈ sampleImage.layers,
        sampleStaging.IsNewTo (ImageLayout.blobPath sampleImage.root layer.digest)) ∧
      sampleStaging.make sampleFiles = (.ok (), sampleMade) ∧
      ∀ choose, (evaluate .free .standard sampleImage sampleStaging choose sampleFiles).1 =
        .error (.imageAccess "Layer file not found: /image/blobs/sha256/b") := by
  have numbered : sampleImage.IsNumbered := rfl
  have noSlash : ∀ layer ∈ sampleImage.layers, '/' ∉ layer.digest.toList := by decide
  have fresh : ∀ layer ∈ sampleImage.layers,
      sampleStaging.IsNewTo (ImageLayout.blobPath sampleImage.root layer.digest) := by
    unfold Staging.IsNewTo
    decide +kernel
  have created : sampleStaging.make sampleFiles = (.ok (), sampleMade) := by
    with_unfolding_all rfl
  have succeeds : (Job.alone ⟨.free, .standard, sampleImage, sampleStaging⟩ sampleMade
      ⟨0, "sha256:a", "", 0⟩).isOk = true := by
    decide +kernel
  have fails : Job.alone ⟨.free, .standard, sampleImage, sampleStaging⟩ sampleMade
      ⟨1, "sha256:b", "", 0⟩ =
        .error (.imageAccess "Layer file not found: /image/blobs/sha256/b") := by
    with_unfolding_all rfl
  refine ⟨numbered, noSlash, fresh, created, fun choose => ?_⟩
  refine ((evaluate_in_order .standard choose numbered noSlash fresh created).2.1 _).mpr
    ⟨[⟨0, "sha256:a", "", 0⟩], ⟨1, "sha256:b", "", 0⟩, [⟨2, "sha256:c", "", 0⟩], rfl, ?_, fails⟩
  intro earlier member
  obtain rfl := List.mem_singleton.mp member
  cases outcome : Job.alone ⟨.free, .standard, sampleImage, sampleStaging⟩ sampleMade
    ⟨0, "sha256:a", "", 0⟩ with
  | ok link => exact ⟨link, rfl⟩
  | error failure =>
    rw [outcome] at succeeds
    cases succeeds

end Sample

end Audit

end ImageAudit
