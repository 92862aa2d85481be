import ProviderAssets.Proofs.Conservation
import ProviderAssets.Proofs.Contents
import ProviderAssets.Proofs.Failure
import ProviderAssets.Proofs.Locality
import ProviderAssets.Proofs.ServingCertificate.Resolution

/-!
# What an import requires of a release

There are five things that can go wrong between a release and its assets, and they are looked for in
order: the components cannot be read, they cannot be moved, the bindings of services cannot be found,
a deployment that is not excluded cannot be read, the metadata are no text. `Release.requirements`
looks for these and makes nothing, and fails as the assets do (`Release.contents_requirements`). So
`Release.assets_iff_meets` says of every release whether it has assets, and with which error it has
none.
-/

namespace ProviderAssets

/-! ## Deployments and metadata -/

namespace Resource

/-- Whether the containers of a deployment can be read when it has been moved into a namespace. -/
def checkDeployment (ns : String) (r : Resource) : Except Error Unit :=
  (fun _ => ()) <$> (Shape.deployment (.object r.root)).mapError (.decode { r.id with ns := some ns })

variable {ns : String} {r : Resource}

/-- A deployment is in order if it has the shape of one. -/
theorem checkDeployment_eq_ok : r.checkDeployment ns = .ok () ↔
    ∃ containers, Shape.deployment (.object r.root) = .ok containers := by
  unfold checkDeployment
  cases Shape.deployment (.object r.root) with
  | error m => exact ⟨nofun, nofun⟩
  | ok containers => exact ⟨fun _ => ⟨containers, rfl⟩, fun _ => rfl⟩

/-- A deployment is not in order where it does not have that shape, and the error names it in its new
place. -/
theorem checkDeployment_eq_error {e : Error} : r.checkDeployment ns = .error e ↔
    ∃ m, Shape.deployment (.object r.root) = .error m ∧ e = .decode { r.id with ns := some ns } m := by
  unfold checkDeployment
  cases Shape.deployment (.object r.root) with
  | error m =>
    refine ⟨fun h => ⟨m, rfl, (Except.error.inj h).symm⟩, ?_⟩
    rintro ⟨_, ⟨⟩, rfl⟩
    rfl
  | ok containers => exact ⟨nofun, nofun⟩

end Resource

namespace Release

open Resource Relocation

/-- Whether the metadata of a provider are text. -/
def checkMetadata (p : Provider) (metadata : List UInt8) : Except Error Unit :=
  match Text.ofBytes? metadata with
  | some _ => pure ()
  | none => throw (.utf8 ("metadata of provider " ++ Text.ticked p.name))

/-- Metadata are in order if they are text. -/
theorem checkMetadata_eq_ok {p : Provider} {metadata : List UInt8} {u : Unit} :
    checkMetadata p metadata = .ok u ↔ ∃ text, Text.ofBytes? metadata = some text := by
  unfold checkMetadata
  cases Text.ofBytes? metadata with
  | none => exact ⟨nofun, nofun⟩
  | some text => exact ⟨fun _ => ⟨text, rfl⟩, fun _ => rfl⟩

/-- Metadata are not in order if they are no text, and the error names the provider. -/
theorem checkMetadata_eq_error {p : Provider} {metadata : List UInt8} {e : Error} :
    checkMetadata p metadata = .error e ↔
      Text.ofBytes? metadata = none ∧ e = .utf8 ("metadata of provider " ++ Text.ticked p.name) := by
  unfold checkMetadata
  cases Text.ofBytes? metadata with
  | none => exact ⟨fun h => ⟨rfl, (Except.error.inj h).symm⟩, fun h => congrArg _ h.2.symm⟩
  | some text => exact ⟨nofun, nofun⟩

/-- A package is made where the metadata are text. -/
theorem map_make (components : Manifest) (p : Provider) (ns : String) (metadata : List UInt8) :
    (fun _ => ()) <$> Package.make components p ns metadata = checkMetadata p metadata := by
  unfold Package.make checkMetadata
  cases Text.ofBytes? metadata <;> rfl

variable {config : Config} {exclude : Option Exclusion} {p : Provider} {release : Release}
  {bound : Bindings}

/-- The deployments that are not excluded. -/
def deployments (exclude : Option Exclusion) (rs : List Resource) : List Resource :=
  rs.filter fun r => r.kind = .deployment && !exclude.any (·.drops r)

/-- A prepared deployment is read as the one that it is made of, in its new place. -/
theorem map_decode_deployment {r t : Resource} (h : Prepares config p bound r t)
    (hk : r.kind = .deployment) :
    (fun _ => ()) <$> t.decode Shape.deployment = r.checkDeployment config.targetNamespace := by
  obtain ⟨s, hs, ht⟩ := h
  have moved := moved_of_move hs
  have again := reannotated_forPlatform ht
  have hid : t.id = { r.id with ns := some config.targetNamespace } := by
    have hns : isNamespaced r = true := by
      unfold isNamespaced
      rw [hk]
      rfl
    have hplace := moved.place
    rw [if_pos hns] at hplace
    have hsame : s.id = ⟨r.id.gvk, r.id.name, some config.targetNamespace⟩ := by
      rw [← moved.gvk, ← moved.name, ← hplace]
    exact again.id.trans hsame
  have hspec : Fields.get? t.root "spec" = Fields.get? r.root "spec" := by
    rw [again.root "spec" (by decide), ← get?_root_move hs
      (not_admits_of_kind hk (by decide) (by decide)) (by decide)]
    exact get?_root_updateMetadata s _ (by decide)
  unfold decode checkDeployment Shape.deployment
  rw [Json.Decoder.record1_object, Json.Decoder.record1_object, hspec, hid]

/-- The images of the components are read of the deployments that are not excluded, and nothing else is
read for them. -/
theorem map_images {all prepared : Manifest}
    (h : List.Forall₂ (Prepares config p bound) (all.resources.filter (!·.kind.isNeedless))
      prepared.resources) :
    (fun _ => ()) <$> (divide config exclude prepared).1.images p =
      forM (deployments exclude all.resources) (·.checkDeployment config.targetNamespace) := by
  unfold Manifest.images
  rw [foldlM_ite, ← comp_map, resources_divide_components, List.filter_filter]
  refine (map_mapM_unit _ _).trans ?_
  have hselected : List.Forall₂ (Prepares config p bound) (deployments exclude all.resources)
      (prepared.resources.filter fun t => decide (t.kind = .deployment) && keeps exclude t) := by
    refine forall₂_select (fun r t hrt => by rw [hrt.kind, keeps_congr hrt]) (fun r => ?_) h
    by_cases hk : r.kind = .deployment
    · simp [hk, keeps, Exclusion.drops, Kind.isRbac, Kind.isNeedless]
    · simp [hk]
  refine (forM_congr hselected fun r hr t hrt => ?_).symm
  have hk := (Bool.and_eq_true_iff.1 (List.mem_filter.1 hr).2).1
  exact (map_decode_deployment hrt (of_decide_eq_true hk)).symm

/-- No component is excluded, so nothing is read of an excluded deployment. -/
theorem not_drops_of_mem_components {m : Manifest} {r : Resource}
    (h : r ∈ (divide config exclude m).1.resources) : exclude.any (·.drops r) = false := by
  rw [resources_divide_components, List.mem_filter] at h
  have hkeeps := h.2
  cases exclude with
  | none => rfl
  | some e =>
    by_cases hk : r.kind = .customResourceDefinition
    · simp [Exclusion.drops, hk]
    · simpa [keeps, Exclusion.drops, hk] using (Bool.and_eq_true_iff.1 hkeeps).2

/-! ## Requirements -/

/-- Looks for what can go wrong between a release and its assets, one thing after the other. -/
def requirements (config : Config) (exclude : Option Exclusion) (p : Provider) (release : Release) :
    Except Error Unit := do
  let all ← Manifest.ofText release.components
  let moved ← all.relocate config.targetNamespace
  let _ ← (moved.label p).bindings
  forM (deployments exclude all.resources) (·.checkDeployment config.targetNamespace)
  checkMetadata p release.metadata

/-- Moved resources can be given the certificates of the platform, whatever the bindings are. -/
theorem exists_forPlatform_of_relocate {ns : String} {all moved : Manifest}
    (h : all.relocate ns = .ok moved) (p : Provider) (bound : Bindings) :
    ∃ prepared, (moved.label p).forPlatform bound = .ok prepared := by
  have hkeyed : (moved.label p).IsKeyed := (Manifest.relocate_eq_ok h).2.map fun _ => rfl
  exact hkeyed.exists_forPlatform bound

/-- The stages of a release one after the other. -/
theorem stages_eq (config : Config) (exclude : Option Exclusion) (p : Provider) (all : Manifest) :
    stages config exclude p all = do
      let moved ← all.relocate config.targetNamespace
      let bound ← (moved.label p).bindings
      let prepared ← (moved.label p).forPlatform bound
      return divide config exclude prepared := by
  unfold stages prepare Manifest.withPlatformCertificates
  simp only [bind_assoc]

/-- The contents of a release fail as its requirements do. -/
theorem contents_requirements (config : Config) (exclude : Option Exclusion) (p : Provider)
    (release : Release) :
    (fun _ => ()) <$> release.contents config exclude p = release.requirements config exclude p := by
  unfold contents requirements
  rw [map_bind]
  refine bind_congr fun all => ?_
  rw [stages_eq, bind_assoc, map_bind]
  refine bind_congr_of_ok fun moved hmoved => ?_
  rw [bind_assoc, map_bind]
  refine bind_congr_of_ok fun bound hbound => ?_
  obtain ⟨prepared, hprepared⟩ := exists_forPlatform_of_relocate hmoved p bound
  obtain ⟨_, _, -, -, hres, -⟩ :=
    prepare_eq_ok (bind_eq_ok.2 ⟨moved, hmoved, bind_eq_ok.2 ⟨bound, hbound, hprepared⟩⟩)
  rw [hprepared, ← map_images hres, bind_map_left, ← map_make (divide config exclude prepared).1 p
    config.targetNamespace release.metadata]
  show (fun _ => ()) <$> ((divide config exclude prepared).1.images p >>= fun images => _) = _
  rw [map_bind]
  refine bind_congr fun images => ?_
  rw [map_bind, ← bind_pure_comp]
  rfl

/-! ## What the assets of a release say about it -/

/-- A release meets all that an import requires: `all` are its resources, `moved` these in their new
places, and `bound` the bindings of its services. -/
structure Meets (config : Config) (exclude : Option Exclusion) (p : Provider) (release : Release)
    (all moved : Manifest) (bound : Bindings) : Prop where
  /-- The components can be read. -/
  components : Manifest.ofText release.components = .ok all
  /-- They can be moved. -/
  relocation : all.relocate config.targetNamespace = .ok moved
  /-- The bindings of services can be found when they are. -/
  bindings : (moved.label p).bindings = .ok bound
  /-- Every deployment that is not excluded has the shape of one. -/
  deployments : ∀ r ∈ deployments exclude all.resources,
    ∃ containers, Shape.deployment (.object r.root) = .ok containers
  /-- The metadata are text. -/
  metadata : ∃ text, Text.ofBytes? release.metadata = some text

/-- The first requirement that a release does not meet fails with an error. -/
inductive FailsFirst (config : Config) (exclude : Option Exclusion) (p : Provider)
    (release : Release) : Error → Prop where
  /-- The components cannot be read. -/
  | components {e : Error} (h : Manifest.ofText release.components = .error e) :
    FailsFirst config exclude p release e
  /-- They can be read, but not moved. -/
  | relocation {all : Manifest} {e : Error} (hall : Manifest.ofText release.components = .ok all)
    (h : all.relocate config.targetNamespace = .error e) : FailsFirst config exclude p release e
  /-- They can be moved, but the bindings of services cannot be found then. -/
  | bindings {all moved : Manifest} {e : Error}
    (hall : Manifest.ofText release.components = .ok all)
    (hmoved : all.relocate config.targetNamespace = .ok moved)
    (h : (moved.label p).bindings = .error e) : FailsFirst config exclude p release e
  /-- The first deployment that does not have the shape of one is named in its new place. -/
  | deployment {all moved : Manifest} {bound : Bindings} {before after : List Resource}
    {r : Resource} {m : Mismatch} (hall : Manifest.ofText release.components = .ok all)
    (hmoved : all.relocate config.targetNamespace = .ok moved)
    (hbound : (moved.label p).bindings = .ok bound)
    (hsplit : deployments exclude all.resources = before ++ r :: after)
    (hbefore : ∀ s ∈ before, ∃ containers, Shape.deployment (.object s.root) = .ok containers)
    (h : Shape.deployment (.object r.root) = .error m) :
    FailsFirst config exclude p release (.decode { r.id with ns := some config.targetNamespace } m)
  /-- All is well with the components, but the metadata are no text. -/
  | metadata {all moved : Manifest} {bound : Bindings}
    (hall : Manifest.ofText release.components = .ok all)
    (hmoved : all.relocate config.targetNamespace = .ok moved)
    (hbound : (moved.label p).bindings = .ok bound)
    (hdeployments : ∀ r ∈ deployments exclude all.resources,
      ∃ containers, Shape.deployment (.object r.root) = .ok containers)
    (h : Text.ofBytes? release.metadata = none) :
    FailsFirst config exclude p release (.utf8 ("metadata of provider " ++ Text.ticked p.name))

/-- Nothing is found to be wrong exactly if the release meets all requirements. -/
theorem requirements_eq_ok : release.requirements config exclude p = .ok () ↔
    ∃ all moved bound, Meets config exclude p release all moved bound := by
  unfold requirements
  simp only [bind_eq_ok, forM_eq_ok, checkDeployment_eq_ok, checkMetadata_eq_ok]
  constructor
  · rintro ⟨all, hall, moved, hmoved, bound, hbound, ⟨⟩, hdeployments, hmetadata⟩
    exact ⟨all, moved, bound, hall, hmoved, hbound, hdeployments, hmetadata⟩
  · rintro ⟨all, moved, bound, hall, hmoved, hbound, hdeployments, hmetadata⟩
    exact ⟨all, hall, moved, hmoved, bound, hbound, (), hdeployments, hmetadata⟩

/-- What is found to be wrong is the first requirement that is not met. -/
theorem requirements_eq_error {e : Error} : release.requirements config exclude p = .error e ↔
    FailsFirst config exclude p release e := by
  unfold requirements
  simp only [bind_eq_error, forM_eq_error, forM_eq_ok, checkDeployment_eq_ok,
    checkDeployment_eq_error, checkMetadata_eq_error]
  constructor
  · rintro (hall | ⟨all, hall, hmoved | ⟨moved, hmoved, hbound | ⟨bound, hbound, hrest⟩⟩⟩)
    · exact .components hall
    · exact .relocation hall hmoved
    · exact .bindings hall hmoved hbound
    · obtain ⟨before, r, after, hsplit, hbefore, m, hr, rfl⟩ | ⟨⟨⟩, hdeployments, htext, rfl⟩ := hrest
      · exact .deployment hall hmoved hbound hsplit hbefore hr
      · exact .metadata hall hmoved hbound hdeployments htext
  · rintro (hall | ⟨hall, hmoved⟩ | ⟨hall, hmoved, hbound⟩ |
      ⟨hall, hmoved, hbound, hsplit, hbefore, hr⟩ | ⟨hall, hmoved, hbound, hdeployments, htext⟩)
    · exact .inl hall
    · exact .inr ⟨_, hall, .inl hmoved⟩
    · exact .inr ⟨_, hall, .inr ⟨_, hmoved, .inl hbound⟩⟩
    · exact .inr ⟨_, hall, .inr ⟨_, hmoved, .inr ⟨_, hbound,
        .inl ⟨_, _, _, hsplit, hbefore, _, hr, rfl⟩⟩⟩⟩
    · exact .inr ⟨_, hall, .inr ⟨_, hmoved, .inr ⟨_, hbound, .inr ⟨(), hdeployments, htext, rfl⟩⟩⟩⟩

/-- Every release has assets exactly if it meets all requirements, and else none with the error of the
first one that it does not meet, whatever is in the catalog. Its components can be read exactly if
every document of them is null or describes a resource, and no two resources have the same identity.
Moved resources can be given the certificates of the platform, whatever the bindings are, and no
component, of which the images are read, is excluded. -/
theorem assets_iff_meets (config : Config) (exclude : Option Exclusion) (p : Provider)
    (release : Release) :
    (∀ catalog, (∃ a, release.assets config exclude p catalog = .ok a) ↔
      ∃ all moved bound, Meets config exclude p release all moved bound) ∧
    (∀ catalog e, release.assets config exclude p catalog = .error e ↔
      FailsFirst config exclude p release e) ∧
    ((∃ all, Manifest.ofText release.components = .ok all) ↔
      ∃ made, List.Forall₂ (fun d r => Manifest.resourceOf d = .ok r)
        (Yaml.documents release.components) made ∧ ((made.filterMap id).map (·.id)).Nodup) ∧
    (∀ all moved : Manifest, all.relocate config.targetNamespace = .ok moved →
      ∀ bound, ∃ prepared, (moved.label p).forPlatform bound = .ok prepared) ∧
    ∀ prepared : Manifest, ∀ r ∈ (divide config exclude prepared).1.resources,
      exclude.any (·.drops r) = false := by
  refine ⟨fun catalog => ?_, fun catalog e => ?_, Manifest.exists_collect_iff,
    fun all moved hmoved bound => exists_forPlatform_of_relocate hmoved p bound,
    fun prepared r hr => not_drops_of_mem_components hr⟩
  · rw [← requirements_eq_ok, ← contents_requirements, assets_eq]
    cases release.contents config exclude p with
    | error e => exact ⟨nofun, nofun⟩
    | ok k => exact ⟨fun _ => rfl, fun _ => ⟨_, rfl⟩⟩
  · rw [← requirements_eq_error, ← contents_requirements, assets_eq, map_eq_error, map_eq_error]

/-- A release with a deployment that does not have the shape of one. -/
def brokenDeployment : Release where
  metadata := []
  components :=
    "\x7bapiVersion: apps/v1, kind: Deployment, metadata: \x7bname: ipam\x7d, spec: 5\x7d\n"

/-- The release has assets if that deployment is excluded. If it is not, the deployment is what is
wrong with it. -/
theorem assets_brokenDeployment :
    (∃ a, brokenDeployment.assets .standard (some (.contains "ipam")) sampleProvider .empty = .ok a) ∧
    (∃ all moved bound, Meets .standard (some (.contains "ipam")) sampleProvider brokenDeployment
      all moved bound) ∧
    ∃ e, FailsFirst .standard none sampleProvider brokenDeployment e := by
  have excluded := assets_iff_meets .standard (some (.contains "ipam")) sampleProvider brokenDeployment
  have included := assets_iff_meets .standard none sampleProvider brokenDeployment
  obtain ⟨a, ha, -⟩ := exists_ok_of_toOption
    (x := brokenDeployment.assets .standard (some (.contains "ipam")) sampleProvider .empty)
    (f := (·.dropped)) (b := 1) (by decide +kernel)
  refine ⟨⟨a, ha⟩, (excluded.1 .empty).1 ⟨a, ha⟩, ?_⟩
  have hnone : (brokenDeployment.assets .standard none sampleProvider .empty).toOption = none := by
    decide +kernel
  cases h : brokenDeployment.assets .standard none sampleProvider .empty with
  | error e => exact ⟨e, (included.2.1 .empty e).1 h⟩
  | ok a =>
    rw [h] at hnone
    cases hnone

end Release

end ProviderAssets
