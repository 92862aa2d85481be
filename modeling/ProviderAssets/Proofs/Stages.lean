import ProviderAssets.Release
import ProviderAssets.Proofs.Relocation
import ProviderAssets.Proofs.ServingCertificate.Platform

/-!
# The stages of a release

A run that succeeds is taken apart into its stages. `Release.assets_eq_ok` says what there is in
between: the resources that are read, the moved ones, the bindings of services, the prepared ones,
and the two manifests that these are divided into. `Release.prepare_eq_ok` relates each resource that
is read to the prepared one that it becomes, in order; a resource of a kind that the platform makes
needless becomes nothing. The division only selects, and annotates the roles and accounts.
-/

namespace ProviderAssets

/-! ## Single stages -/

/-- Annotations leave the identity of a resource. -/
theorem Resource.id_annotate (a : Annotations) (merge : Bool) (r : Resource) :
    (r.annotate a merge).id = r.id := rfl

namespace Package

variable {components : Manifest} {p : Provider} {ns : String} {metadata : List UInt8} {k : Package}

/-- A package is made exactly if the metadata are text, and of that text. -/
theorem make_eq_ok_iff : make components p ns metadata = .ok k ↔
    ∃ text, Text.ofBytes? metadata = some text ∧
      { configMap := configMapOf components p ns text, record := recordOf p ns } = k := by
  unfold make
  cases Text.ofBytes? metadata with
  | none => exact ⟨nofun, nofun⟩
  | some text => simp [pure, Except.pure]

end Package

namespace Manifest

/-- A manifest that is moved holds, in order, what a move makes of each resource. -/
theorem relocate_eq_ok {ns : String} {m n : Manifest} (h : m.relocate ns = .ok n) :
    List.Forall₂ (fun r s => Relocation.move ns r = .ok s) m.resources n.resources ∧ n.IsKeyed :=
  collect_some_eq_ok h

/-- The resources that are no roles and accounts are selected. -/
theorem resources_splitRbac_core (a : Annotations) (m : Manifest) :
    (m.splitRbac a).1.resources = m.resources.filter (!·.kind.isRbac) := resources_filter ..

/-- The roles and accounts are selected and annotated. -/
theorem resources_splitRbac_rbac (a : Annotations) (m : Manifest) :
    (m.splitRbac a).2.resources = (m.resources.filter (·.kind.isRbac)).map (·.annotate a false) := by
  show ((m.filter (·.kind.isRbac)).map _).resources = _
  rw [resources_map, resources_filter]

end Manifest

namespace Release

/-! ## Resources that are prepared -/

/-- `t` is what the stages for all resources make of `r`: it is moved, labelled, and given the
certificates of the platform. -/
def Prepares (config : Config) (p : Provider) (bound : Bindings) (r t : Resource) : Prop :=
  ∃ s, Relocation.move config.targetNamespace r = .ok s ∧ (s.label p).forPlatform bound = some t

variable {config : Config} {exclude : Option Exclusion} {p : Provider} {release : Release}
  {bound : Bindings} {r t : Resource}

/-- A prepared resource has the group, version, kind and name of the one that it is made of. -/
theorem Prepares.same (h : Prepares config p bound r t) :
    t.id.gvk = r.id.gvk ∧ t.id.name = r.id.name := by
  obtain ⟨s, hs, ht⟩ := h
  have moved := Relocation.moved_of_move hs
  have hid : t.id = s.id := (Resource.reannotated_forPlatform ht).id
  rw [hid]
  exact ⟨moved.gvk, moved.name⟩

/-- A prepared resource is of the kind of the one that it is made of. -/
theorem Prepares.kind (h : Prepares config p bound r t) : t.kind = r.kind :=
  Resource.kind_congr h.same.1

/-- Preparation keeps the resources that are not needless, in order, and makes each one anew. -/
theorem prepare_eq_ok {m n : Manifest} (h : prepare config p m = .ok n) :
    ∃ moved bound, m.relocate config.targetNamespace = .ok moved ∧
      (moved.label p).bindings = .ok bound ∧
      List.Forall₂ (Prepares config p bound) (m.resources.filter (!·.kind.isNeedless))
        n.resources ∧ n.IsKeyed := by
  unfold prepare at h
  obtain ⟨moved, hmoved, h⟩ := bind_eq_ok.1 h
  obtain ⟨bound, hbound, hres, hkey⟩ := Manifest.withPlatformCertificates_eq_ok h
  obtain ⟨hmove, -⟩ := Manifest.relocate_eq_ok hmoved
  refine ⟨moved, bound, hmoved, hbound, ?_, hkey⟩
  rw [hres, Manifest.label, Manifest.resources_map, List.filterMap_map]
  -- A move leaves the kind, so what becomes needless is known before it.
  have needless (r s : Resource) (hs : Relocation.move config.targetNamespace r = .ok s) :
      (s.label p).forPlatform bound = none ↔ r.kind.isNeedless = true := by
    have hkind : (s.label p).kind = r.kind :=
      Resource.kind_congr (Relocation.moved_of_move hs).gvk
    rw [Resource.forPlatform_eq_none_iff, hkind]
  refine forall₂_filter_filterMap ?_ ?_ hmove
  · intro r s hs hr
    have hne : (s.label p).forPlatform bound ≠ none := by
      rw [Ne, needless r s hs]
      simpa using hr
    obtain ⟨t, ht⟩ := Option.ne_none_iff_exists'.1 hne
    exact ⟨t, ht, s, hs, ht⟩
  · intro r s hs hr
    exact (needless r s hs).2 (by simpa using hr)

/-! ## Division -/

/-- Whether a prepared resource is to be among the components. -/
def keeps (exclude : Option Exclusion) (r : Resource) : Bool :=
  !r.kind.isRbac && (r.kind = .customResourceDefinition || !exclude.any (·.excludes r.name))

/-- The components are selected from the prepared resources. -/
theorem resources_divide_components (config : Config) (exclude : Option Exclusion) (m : Manifest) :
    (divide config exclude m).1.resources = m.resources.filter (keeps exclude) := by
  cases exclude with
  | none =>
    show (m.splitRbac config.annotations).1.resources = _
    rw [Manifest.resources_splitRbac_core]
    congr 1
    funext r
    simp [keeps]
  | some e =>
    show ((m.splitRbac config.annotations).1.filter (!e.drops ·)).resources = _
    rw [Manifest.resources_filter, Manifest.resources_splitRbac_core, List.filter_filter]
    congr 1
    funext r
    simp only [keeps, Exclusion.drops, Option.any_some, Bool.not_and, decide_not, Bool.not_not]
    exact Bool.and_comm ..

/-- The roles and accounts are selected from the prepared resources, and annotated. -/
theorem resources_divide_rbac (config : Config) (exclude : Option Exclusion) (m : Manifest) :
    (divide config exclude m).2.resources =
      (m.resources.filter (·.kind.isRbac)).map (·.annotate config.annotations false) :=
  Manifest.resources_splitRbac_rbac ..

/-- The division keeps the keys right. -/
theorem isKeyed_divide (config : Config) (exclude : Option Exclusion) {m : Manifest}
    (h : m.IsKeyed) :
    (divide config exclude m).1.IsKeyed ∧ (divide config exclude m).2.IsKeyed := by
  have core : (m.splitRbac config.annotations).1.IsKeyed := h.filter _
  constructor
  · cases exclude with
    | none => exact core
    | some e => exact core.filter (!e.drops ·)
  · exact (h.filter _).map fun r => Resource.id_annotate ..

/-! ## Runs -/

end Release

/-- The assets are made of these components, and of these roles and accounts. -/
structure Assets.MadeOf (a : Assets) (config : Config) (p : Provider) (components rbac : Manifest) :
    Prop where
  /-- The config map holds the components, and a file of its own the roles and accounts. -/
  files : ∃ metadata, a.files = Release.files config p
    { configMap := Package.configMapOf components p config.targetNamespace metadata
      record := Package.recordOf p config.targetNamespace } rbac a.catalog
  /-- The components are counted. -/
  components : a.components = components.size
  /-- The roles and accounts are counted. -/
  rbac : a.rbac = rbac.size

namespace Release

variable {config : Config} {exclude : Option Exclusion} {p : Provider} {release : Release}
  {catalog : ImageCatalog} {a : Assets}

/-- A run that succeeds reads the resources, prepares them, and divides them into the two manifests
that the assets are made of. All others are counted as dropped. -/
theorem assets_eq_ok (h : release.assets config exclude p catalog = .ok a) :
    ∃ all prepared, Manifest.ofText release.components = .ok all ∧
      prepare config p all = .ok prepared ∧
      a.MadeOf config p (divide config exclude prepared).1 (divide config exclude prepared).2 ∧
      a.dropped = all.size - a.components - a.rbac := by
  unfold assets at h
  obtain ⟨all, hall, h⟩ := bind_eq_ok.1 h
  obtain ⟨⟨components, rbac⟩, hstages, h⟩ := bind_eq_ok.1 h
  obtain ⟨images, -, h⟩ := bind_eq_ok.1 h
  obtain ⟨package, hpackage, h⟩ := bind_eq_ok.1 h
  cases h
  unfold stages at hstages
  obtain ⟨prepared, hprepared, hstages⟩ := bind_eq_ok.1 hstages
  obtain ⟨rfl, rfl⟩ := Prod.mk.inj (Except.ok.inj hstages)
  obtain ⟨text, -, rfl⟩ := Package.make_eq_ok_iff.1 hpackage
  exact ⟨all, prepared, hall, hprepared, ⟨⟨text, rfl⟩, rfl, rfl⟩, rfl⟩

/-- A small release: an account, a namespace, a service, and a secret. -/
def sample : Release where
  metadata := []
  components := "\x7bapiVersion: v1, kind: ServiceAccount, metadata: \x7bname: a\x7d\x7d
---
\x7bapiVersion: v1, kind: Namespace, metadata: \x7bname: n\x7d\x7d
---
\x7bapiVersion: v1, kind: Service, metadata: \x7bname: s\x7d\x7d
---
\x7bapiVersion: v1, kind: Secret, metadata: \x7bname: ipam\x7d\x7d
"

/-- The provider of the small release. -/
def sampleProvider : Provider := ⟨"metal3", .infrastructure, "v1.3.0"⟩

/-- The run on the small release succeeds: the account is split off, the service is a component, the
namespace is needless and the secret excluded. -/
theorem exists_assets_sample :
    ∃ a, sample.assets .standard (some (.contains "ipam")) sampleProvider .empty = .ok a ∧
      (a.components, a.rbac, a.dropped) = (1, 1, 2) :=
  exists_ok_of_toOption (by decide +kernel)

end Release

end ProviderAssets
