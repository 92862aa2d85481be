import ProviderAssets.Proofs.Stages
import ProviderAssets.Proofs.Fields

/-!
# What holds of everything that is shipped

The resources in the assets are ready for the cluster, whatever the release. `Resource.IsPlaced`
collects what the first two stages set up, and every later stage changes annotations alone, so that
it still holds at the end (`Resource.IsPlaced.reannotated`). `Resource.IsCertified` is about the
annotations by which the platform serves certificates. The main statement is
`Release.assets_shipped`: both hold of all resources in the assets, and the annotations of roles and
accounts are those for the platform.
-/

namespace ProviderAssets

open Json (Object Value)

/-! ## Fields that are written one after the other -/

namespace Fields

variable {α β : Type}

/-- The map with all values changed. -/
def mapValues (φ : α → β) (f : Fields α) : Fields β := f.map fun (key, value) => (key, φ value)

/-- Insertion commutes with a change of all values. -/
theorem insert_mapValues (φ : α → β) (f : Fields α) (key : String) (value : α) :
    insert (mapValues φ f) key (φ value) = mapValues φ (insert f key value) := by
  induction f with
  | nil => rfl
  | cons e rest ih =>
    obtain ⟨k, v⟩ := e
    show insert ((k, φ v) :: mapValues φ rest) key (φ value) = _
    by_cases hk : k = key
    · rw [insert, if_pos hk, insert, if_pos hk]
      rfl
    · rw [insert, if_neg hk, insert, if_neg hk, ih]
      rfl

/-- Writing entries commutes with a change of all values. -/
theorem insertAll_mapValues (φ : α → β) (g : Fields α) : ∀ f : Fields α,
    insertAll (mapValues φ f) (mapValues φ g) = mapValues φ (insertAll f g) := by
  induction g with
  | nil => exact fun f => rfl
  | cons e rest ih =>
    intro f
    show insertAll (insert (mapValues φ f) e.1 (φ e.2)) (mapValues φ rest) = _
    rw [insert_mapValues]
    exact ih (insert f e.1 e.2)

end Fields

/-- Roles and accounts do not ask for an authority. -/
theorem Kind.acceptsInjection_of_isRbac {k : Kind} (h : k.isRbac = true) :
    k.acceptsInjection = false := by
  cases k <;> first | rfl | cases h

/-! ## Placed resources -/

namespace Resource

/-- What is known of a resource that was moved into a namespace and has the labels of a provider. -/
structure IsPlaced (ns : String) (p : Provider) (r : Resource) : Prop where
  /-- The resource says which provider it belongs to. -/
  provider : r.label? Label.provider = some (.string p.manifestLabel)
  /-- The resource says that it was installed as part of a provider. -/
  installed : r.label? Label.installed = some (.string "")
  /-- A resource that belongs to a namespace is in this one, and its metadata say so. -/
  place : Relocation.isNamespaced r = true →
    r.id.ns = some ns ∧ r.metadataField? "namespace" = some (.string ns)
  /-- Webhooks are called through services in the namespace, wherever one is given. -/
  webhook : r.kind = .mutatingWebhookConfiguration ∨ r.kind = .validatingWebhookConfiguration →
    ∀ w, Relocation.webhookNamespace.LeadsTo r.root w → w = .string ns
  /-- So is the webhook that converts custom resources. -/
  conversion : r.kind = .customResourceDefinition →
    ∀ w, Relocation.conversionNamespace.LeadsTo r.root w → w = .string ns
  /-- Roles are bound to service accounts in the namespace. -/
  subject : r.kind = .roleBinding ∨ r.kind = .clusterRoleBinding →
    ∀ subject, FieldPath.LeadsTo [.items "subjects"] r.root (.object subject) →
      Json.Object.text? subject "kind" = some "ServiceAccount" →
        Fields.get? subject "namespace" = some (.string ns)

variable {ns : String} {p : Provider} {r s : Resource}

/-- A resource that was moved and labelled is placed. -/
theorem isPlaced_label (h : Relocation.Moved ns r s) : (s.label p).IsPlaced ns p := by
  have hnamespaced : Relocation.isNamespaced (s.label p) = Relocation.isNamespaced r :=
    Relocation.isNamespaced_congr h.gvk
  have hgvk {k : Kind} (hk : (s.label p).kind = k) (known : k ≠ .other) :
      r.id.gvk.kind = k.name := by
    rw [← h.gvk]
    exact gvk_kind hk known
  -- Labels are in the metadata, where no path to a reference starts.
  have back {path : FieldPath} {w : Value} (hne : ∀ seg ∈ path.head?, seg.name ≠ "metadata")
      (hw : path.LeadsTo (s.label p).root w) : path.LeadsTo s.root w :=
    hw.of_apart hne fun key hkey => (get?_root_updateMetadata s _ hkey).symm
  refine ⟨?_, ?_, ?_, ?_, ?_, ?_⟩
  · rw [label?_label, if_neg (by decide), if_pos rfl]
  · rw [label?_label, if_pos rfl]
  · intro hn
    rw [hnamespaced] at hn
    have hplace := h.place
    rw [if_pos hn] at hplace
    refine ⟨hplace, ?_⟩
    rw [label, metadataField?_updateLabels _ _ (by decide), h.metadata _ (by decide),
      if_pos ⟨rfl, hn⟩]
  · rintro (hk | hk) w hw
    · exact h.service_ofKind Relocation.mutatingWebhooks_mem (hgvk hk (by decide))
        (back (by decide) hw)
    · exact h.service_ofKind Relocation.validatingWebhooks_mem (hgvk hk (by decide))
        (back (by decide) hw)
  · intro hk w hw
    exact h.service_ofKind Relocation.conversions_mem (hgvk hk (by decide)) (back (by decide) hw)
  · rintro (hk | hk) subject hw
    · exact h.subject_ofKind Relocation.roleBindings_mem (hgvk hk (by decide)) (back (by decide) hw)
    · exact h.subject_ofKind Relocation.clusterRoleBindings_mem (hgvk hk (by decide))
        (back (by decide) hw)

/-- Other annotations leave a resource in its place. -/
theorem IsPlaced.reannotated (h : r.IsPlaced ns p) (hrs : r.Reannotated s) : s.IsPlaced ns p := by
  have hgvk : s.id.gvk = r.id.gvk := by rw [hrs.id]
  have labels (key : String) : s.label? key = r.label? key := by
    unfold label?
    rw [labels?_congr (hrs.metadata _ (by decide))]
  have back {path : FieldPath} {w : Value} (hne : ∀ seg ∈ path.head?, seg.name ≠ "metadata")
      (hw : path.LeadsTo s.root w) : path.LeadsTo r.root w :=
    hw.of_apart hne fun key hkey => (hrs.root key hkey).symm
  refine ⟨?_, ?_, ?_, ?_, ?_, ?_⟩
  · rw [labels]
    exact h.provider
  · rw [labels]
    exact h.installed
  · rw [Relocation.isNamespaced_congr hgvk, hrs.id, hrs.metadata _ (by decide)]
    exact h.place
  · rw [kind_congr hgvk]
    exact fun hk w hw => h.webhook hk w (back (by decide) hw)
  · rw [kind_congr hgvk]
    exact fun hk w hw => h.conversion hk w (back (by decide) hw)
  · rw [kind_congr hgvk]
    exact fun hk subject hw => h.subject hk subject (back (by decide) hw)

/-! ## Certified resources -/

/-- What is known of the annotations by which the platform serves certificates. -/
structure IsCertified (bound : Bindings) (r : Resource) : Prop where
  /-- No resource asks for the authority of a certificate. -/
  request : r.kind.acceptsInjection = true → r.annotation? Annotation.injectFrom = none
  /-- A service that is bound to a secret names it. -/
  secret : r.kind = .service → ∀ secret, Fields.get? bound r.name = some secret →
    r.annotation? Annotation.servingSecret = some (.string secret)

variable {bound : Bindings}

/-- What a resource becomes on the platform is certified. -/
theorem isCertified_forPlatform (h : r.forPlatform bound = some s) : s.IsCertified bound := by
  have hid := (reannotated_forPlatform h).id
  have hkind : s.kind = r.kind := kind_congr (congrArg ResourceId.gvk hid)
  constructor
  · intro hk
    rw [hkind] at hk
    rw [forPlatform_of_acceptsInjection hk] at h
    obtain rfl := Option.some.inj h
    exact annotation?_modifyAnnotations_requestBundle r
  · intro hk secret hb
    unfold name at hb
    rw [hkind] at hk
    rw [hid] at hb
    exact annotation?_of_bound h hk hb

/-- Roles and accounts have no part in the serving of certificates. -/
theorem isCertified_of_isRbac (h : r.kind.isRbac = true) : r.IsCertified bound := by
  constructor
  · intro hk
    rw [Kind.acceptsInjection_of_isRbac h] at hk
    cases hk
  · intro hk
    rw [hk] at h
    cases h

/-- The annotations of a resource that keeps none of its own are those that are put on it. -/
theorem annotations?_annotate (a : Annotations) (r : Resource) :
    (r.annotate a false).annotations? = some (Fields.mapValues .string (Fields.ofPairs a)) := by
  unfold annotate
  rw [annotations?_updateAnnotations]
  exact congrArg some (Fields.insertAll_mapValues Value.string a [])

end Resource

/-! ## Runs -/

namespace Release

variable {config : Config} {exclude : Option Exclusion} {p : Provider} {release : Release}
  {catalog : ImageCatalog} {a : Assets} {bound : Bindings}

/-- A prepared resource is placed and certified. -/
theorem Prepares.ready {r t : Resource} (h : Prepares config p bound r t) :
    t.IsPlaced config.targetNamespace p ∧ t.IsCertified bound := by
  obtain ⟨s, hs, ht⟩ := h
  have hmoved := Relocation.moved_of_move hs
  exact ⟨(Resource.isPlaced_label hmoved).reannotated (Resource.reannotated_forPlatform ht),
    Resource.isCertified_forPlatform ht⟩

/-- In a run that succeeds, all resources that the assets are made of are placed and certified, and
the annotations of the roles and accounts are those for the platform and no others. -/
theorem assets_shipped (h : release.assets config exclude p catalog = .ok a) :
    ∃ all moved bound core rbac, Manifest.ofText release.components = .ok all ∧
      all.relocate config.targetNamespace = .ok moved ∧ (moved.label p).bindings = .ok bound ∧
      a.MadeOf config p core rbac ∧
      (∀ t ∈ core.resources ++ rbac.resources,
        t.IsPlaced config.targetNamespace p ∧ t.IsCertified bound) ∧
      ∀ t ∈ rbac.resources,
        t.annotations? = some (Fields.mapValues .string (Fields.ofPairs config.annotations)) ∧
          ((Fields.keys config.annotations).Nodup →
            t.annotations? = some (Fields.mapValues .string config.annotations)) := by
  obtain ⟨all, prepared, hall, hprepared, hold, -⟩ := assets_eq_ok h
  obtain ⟨moved, bound, hmoved, hbound, hres, -⟩ := prepare_eq_ok hprepared
  have ready : ∀ t ∈ prepared.resources,
      t.IsPlaced config.targetNamespace p ∧ t.IsCertified bound := by
    intro t ht
    obtain ⟨r, -, hrt⟩ := exists_of_mem_right hres ht
    exact hrt.ready
  refine ⟨all, moved, bound, _, _, hall, hmoved, hbound, hold, ?_, ?_⟩
  · intro t ht
    rcases List.mem_append.1 ht with ht | ht
    · rw [resources_divide_components] at ht
      exact ready t (List.mem_filter.1 ht).1
    · rw [resources_divide_rbac] at ht
      -- New annotations leave the place, and roles and accounts serve no certificates.
      obtain ⟨s, hs, rfl⟩ := List.mem_map.1 ht
      obtain ⟨hs, hisRbac⟩ := List.mem_filter.1 hs
      exact ⟨(ready s hs).1.reannotated (.updateAnnotations s _),
        Resource.isCertified_of_isRbac hisRbac⟩
  · intro t ht
    rw [resources_divide_rbac] at ht
    obtain ⟨s, -, rfl⟩ := List.mem_map.1 ht
    rw [Resource.annotations?_annotate]
    refine ⟨rfl, fun distinct => ?_⟩
    rw [Fields.ofPairs_of_nodup distinct]

/-- The service and the account of the small release are ready for the cluster, and the account has
the annotations of a release. -/
theorem sample_shipped :
    ∃ a bound core rbac,
      sample.assets .standard (some (.contains "ipam")) sampleProvider .empty = .ok a ∧
        a.MadeOf .standard sampleProvider core rbac ∧ core.size = 1 ∧ rbac.size = 1 ∧
        (∀ t ∈ core.resources ++ rbac.resources,
          t.IsPlaced "openshift-cluster-api" sampleProvider ∧ t.IsCertified bound) ∧
        ∀ t ∈ rbac.resources,
          t.annotations? = some (Fields.mapValues .string Annotations.release) := by
  obtain ⟨a, ha, hcounts⟩ := exists_assets_sample
  obtain ⟨-, -, bound, core, rbac, -, -, -, hold, ready, annotated⟩ := assets_shipped ha
  simp only [Prod.mk.injEq] at hcounts
  have hcore := hold.components
  have hrbac := hold.rbac
  have distinct : (Fields.keys Config.standard.annotations).Nodup := by decide
  exact ⟨a, bound, core, rbac, ha, hold, by omega, by omega, ready,
    fun t ht => (annotated t ht).2 distinct⟩

end Release

end ProviderAssets
