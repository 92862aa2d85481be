import ProviderAssets.Relocation
import ProviderAssets.Proofs.Rewriting
import ProviderAssets.Proofs.Views

/-!
# What a move does to a resource

A move goes through four parts: the resource itself is placed, then the services that it names, the
subjects that it binds, and the certificate that it refers to follow. `Relocation.move_eq_ok` takes
a move that succeeds apart into these; from that come what a move leaves (group, version, kind,
name, all other metadata) and where everything is afterwards: a resource that belongs to a
namespace is in the new one, and so is every service and every service account that it names.
-/

namespace ProviderAssets

open Json (Object Value)

/-- A kind other than the one for all others is known by its name. -/
theorem Kind.name_of_ofName {s : String} {k : Kind} (h : ofName s = k) (known : k ≠ other) :
    s = k.name := by
  unfold ofName at h
  cases hf : named.find? (·.name = s) with
  | none =>
    rw [hf] at h
    exact absurd h.symm known
  | some k' =>
    rw [hf] at h
    obtain rfl : k' = k := h
    have := List.find?_some hf
    exact (of_decide_eq_true this).symm

namespace Resource

/-- The kind of a resource is that of another one with the same group, version and kind. -/
theorem kind_congr {r s : Resource} (h : s.id.gvk = r.id.gvk) : s.kind = r.kind := by
  unfold kind
  rw [h]

/-- A resource of a known kind has the name of that kind in its identity. -/
theorem gvk_kind {r : Resource} {k : Kind} (h : r.kind = k) (known : k ≠ .other) :
    r.id.gvk.kind = k.name := Kind.name_of_ofName h known

end Resource

namespace Relocation

/-- Whether a resource belongs to a namespace is known from its group, version and kind. -/
theorem isNamespaced_congr {r s : Resource} (h : s.id.gvk = r.id.gvk) :
    isNamespaced s = isNamespaced r := by
  unfold isNamespaced
  rw [Resource.kind_congr h, h]

/-! ## Rules -/

/-- The services of webhooks that change resources follow. -/
theorem mutatingWebhooks_mem : mutatingWebhooks ∈ serviceNamespaces := by simp [serviceNamespaces]

/-- The services of webhooks that check resources follow. -/
theorem validatingWebhooks_mem : validatingWebhooks ∈ serviceNamespaces := by
  simp [serviceNamespaces]

/-- The services that convert custom resources follow. -/
theorem conversions_mem : conversions ∈ serviceNamespaces := by simp [serviceNamespaces]

/-- The services behind APIs follow. -/
theorem apiServices_mem : apiServices ∈ serviceNamespaces := by simp [serviceNamespaces]

/-- The subjects of bindings in a namespace follow. -/
theorem roleBindings_mem : roleBindings ∈ subjects := by simp [subjects]

/-- The subjects of bindings in the cluster follow. -/
theorem clusterRoleBindings_mem : clusterRoleBindings ∈ subjects := by simp [subjects]

/-- No two rules are for the same kind. -/
theorem rules_apart : FieldRule.Apart (serviceNamespaces ++ subjects) :=
  FieldRule.apart_of_kinds (by decide)

/-- No two rules for the services are for the same kind. -/
theorem serviceNamespaces_apart : FieldRule.Apart serviceNamespaces :=
  (List.pairwise_append.1 rules_apart).1

/-- No two rules for the subjects are for the same kind. -/
theorem subjects_apart : FieldRule.Apart subjects := (List.pairwise_append.1 rules_apart).2.1

/-- The names of the kinds that there are rules for. -/
def referringKinds : List String :=
  ["MutatingWebhookConfiguration", "ValidatingWebhookConfiguration", "CustomResourceDefinition",
    "APIService", "RoleBinding", "ClusterRoleBinding"]

/-- No rule is for another kind. -/
theorem not_admits_of_gvk {g : GroupVersionKind} (hkind : g.kind ∉ referringKinds) :
    ∀ rule ∈ serviceNamespaces ++ subjects, ¬ rule.selector.admits g = true := by
  intro rule hrule hadm
  have known : ∀ rule ∈ serviceNamespaces ++ subjects,
      ∃ kind ∈ rule.selector.kind, kind ∈ referringKinds := by decide
  obtain ⟨kind, hmem, hknown⟩ := known rule hrule
  rw [FieldRule.kind_eq_of_admits hmem hadm] at hkind
  exact hkind hknown

/-- So no rule is for a resource of another kind that has a name. -/
theorem not_admits_of_kind {r : Resource} {k : Kind} (hk : r.kind = k) (known : k ≠ .other)
    (hname : k.name ∉ referringKinds) :
    ∀ rule ∈ serviceNamespaces ++ subjects, ¬ rule.selector.admits r.id.gvk = true := by
  rw [← Resource.gvk_kind hk known] at hname
  exact not_admits_of_gvk hname

/-- Every path to a service or a subject leads somewhere. -/
theorem path_ne_nil : ∀ rule ∈ serviceNamespaces ++ subjects, rule.path ≠ [] := by
  decide

/-- The fields that the services and the subjects are named in. -/
def referenceFields : List String := ["webhooks", "spec", "subjects"]

/-- Every path to a service or a subject starts with one of these fields. -/
theorem head_mem_referenceFields : ∀ rule ∈ serviceNamespaces ++ subjects,
    ∀ seg ∈ rule.path.head?, seg.name ∈ referenceFields := by
  decide

/-- No path to a service or a subject starts with the metadata. -/
theorem head_ne_metadata {rule : FieldRule} (h : rule ∈ serviceNamespaces ++ subjects)
    {seg : Segment} (hseg : seg ∈ rule.path.head?) : seg.name ≠ "metadata" := by
  intro he
  have hmem := head_mem_referenceFields rule h seg hseg
  rw [he] at hmem
  exact absurd hmem (by decide)

/-- So every path has a first segment, and that is for a field next to the metadata. -/
theorem exists_path_eq_cons {rule : FieldRule} (h : rule ∈ serviceNamespaces ++ subjects) :
    ∃ seg rest, rule.path = seg :: rest ∧ seg.name ≠ "metadata" := by
  obtain ⟨seg, rest, hpath⟩ := List.exists_cons_of_ne_nil (path_ne_nil rule h)
  have hseg : seg ∈ rule.path.head? := by rw [hpath]; rfl
  exact ⟨seg, rest, hpath, head_ne_metadata h hseg⟩

/-- Services and subjects are named in different fields. -/
theorem head_ne_head : ∀ rule ∈ serviceNamespaces, ∀ seg ∈ rule.path.head?,
    ∀ rule' ∈ subjects, ∀ seg' ∈ rule'.path.head?, seg.name ≠ seg'.name := by
  decide

/-! ## The parts of a move -/

/-- The resource in its new place, before any reference follows. -/
def place (ns : String) (r : Resource) : Resource :=
  if isNamespaced r then r.setNamespace (some ns) else r

/-- A move that succeeds places the resource, and then the services, the subjects and the
certificate that it names follow. -/
theorem move_eq_ok {ns : String} {r s : Resource} (h : move ns r = .ok s) :
    ∃ r₁ r₂, FieldRule.updateAll (m := Id) serviceNamespaces .text (fun _ => pure ns) (place ns r) =
        Except.ok r₁ ∧
      FieldRule.updateAll (m := Id) subjects .object (fun s => pure (moveSubject ns s)) r₁ =
        Except.ok r₂ ∧
      s = moveInjection ns r₂ := by
  unfold move at h
  obtain ⟨r₁, h₁, h⟩ := bind_eq_ok.1 h
  obtain ⟨r₂, h₂, h⟩ := bind_eq_ok.1 h
  cases h
  exact ⟨r₁, r₂, h₁, h₂, rfl⟩

/-- Placing a resource changes nothing but the namespace in its identity. -/
theorem place_id (ns : String) (r : Resource) :
    (place ns r).id = { r.id with ns := if isNamespaced r then some ns else r.id.ns } := by
  unfold place
  split <;> rfl

/-- Placing a resource leaves the fields next to its metadata. -/
theorem get?_root_place (ns : String) (r : Resource) {key : String} (h : key ≠ "metadata") :
    Fields.get? (place ns r).root key = Fields.get? r.root key := by
  unfold place
  split
  · exact Resource.get?_root_setNamespace r (some ns) h
  · rfl

/-- Placing a resource sets the namespace in its metadata, if it belongs to one. -/
theorem metadataField?_place (ns : String) (r : Resource) (key : String) :
    (place ns r).metadataField? key =
      if key = "namespace" ∧ isNamespaced r = true then some (.string ns)
      else r.metadataField? key := by
  unfold place
  by_cases hn : isNamespaced r = true
  · rw [if_pos hn, Resource.metadataField?_setNamespace]
    simp only [hn, and_true]
  · rw [if_neg hn, if_neg fun h => hn h.2]

/-- A reference to a certificate follows without any change but to the annotations. -/
theorem reannotated_moveInjection (ns : String) (r : Resource) :
    r.Reannotated (moveInjection ns r) := by
  unfold moveInjection
  split
  · exact .modifyAnnotations r _
  · exact .refl r

/-- The fields that no service and no subject is named in stay while these follow. -/
theorem get?_root_of_updates {ns : String} {r r₁ r₂ : Resource}
    (h₁ : FieldRule.updateAll (m := Id) serviceNamespaces .text (fun _ => pure ns) r =
      Except.ok r₁)
    (h₂ : FieldRule.updateAll (m := Id) subjects .object (fun s => pure (moveSubject ns s)) r₁ =
      Except.ok r₂)
    {key : String} (hkey : key ∉ referenceFields) :
    Fields.get? r₂.root key = Fields.get? r.root key := by
  have avoids : ∀ rule ∈ serviceNamespaces ++ subjects, ∀ seg ∈ rule.path.head?,
      key ≠ seg.name := by
    rintro rule hrule seg hseg rfl
    exact hkey (head_mem_referenceFields rule hrule seg hseg)
  rw [(FieldRule.updateAll_frame h₂).2 key fun rule hrule =>
      avoids rule (List.mem_append_right _ hrule),
    (FieldRule.updateAll_frame h₁).2 key fun rule hrule =>
      avoids rule (List.mem_append_left _ hrule)]

/-! ## What is known after a move -/

/-- `s` is what a move into the namespace `ns` makes of `r`, as far as other stages see it. -/
structure Moved (ns : String) (r s : Resource) : Prop where
  /-- Group, version and kind stay. -/
  gvk : s.id.gvk = r.id.gvk
  /-- The name stays. -/
  name : s.id.name = r.id.name
  /-- A resource that belongs to a namespace is in the new one; any other one stays where it is. -/
  place : s.id.ns = if isNamespaced r then some ns else r.id.ns
  /-- Fields in which no reference can be are as before. -/
  root : ∀ key, key ≠ "metadata" → key ∉ referenceFields →
    Fields.get? s.root key = Fields.get? r.root key
  /-- The metadata say the new namespace of a resource that belongs to one. Apart from that and
  from the annotations they are as before. -/
  metadata : ∀ key, key ≠ "annotations" → s.metadataField? key =
    if key = "namespace" ∧ isNamespaced r = true then some (.string ns) else r.metadataField? key
  /-- Wherever the namespace of a service is given, it is the new one. -/
  service : ∀ rule ∈ serviceNamespaces, rule.selector.admits r.id.gvk = true →
    ∀ w, rule.path.LeadsTo s.root w → w = .string ns
  /-- Every subject of a binding is a moved one. -/
  subject : ∀ rule ∈ subjects, rule.selector.admits r.id.gvk = true →
    ∀ w, rule.path.LeadsTo s.root w → ∃ subject, w = .object (moveSubject ns subject)

/-- The services that follow are in the new namespace. -/
theorem eq_of_service {ns : String} {r s : Resource} {rule : FieldRule} {w : Value}
    (h : FieldRule.updateAll (m := Id) serviceNamespaces .text (fun _ => pure ns) r = Except.ok s)
    (hrule : rule ∈ serviceNamespaces) (hadm : rule.selector.admits r.id.gvk = true)
    (hw : rule.path.LeadsTo s.root w) : w = .string ns := by
  obtain ⟨_, -, _, _, -, hb, rfl⟩ :=
    FieldRule.updateAll_leadsTo serviceNamespaces_apart h hrule hadm hw
  cases hb
  rfl

/-- The subjects that follow are moved ones. -/
theorem exists_of_subject {ns : String} {r s : Resource} {rule : FieldRule} {w : Value}
    (h : FieldRule.updateAll (m := Id) subjects .object (fun s => pure (moveSubject ns s)) r =
      Except.ok s)
    (hrule : rule ∈ subjects) (hadm : rule.selector.admits r.id.gvk = true)
    (hw : rule.path.LeadsTo s.root w) : ∃ subject, w = .object (moveSubject ns subject) := by
  obtain ⟨_, -, subject, _, -, hb, rfl⟩ :=
    FieldRule.updateAll_leadsTo subjects_apart h hrule hadm hw
  cases hb
  exact ⟨subject, rfl⟩

/-- A move that succeeds does what it is expected to do. -/
theorem moved_of_move {ns : String} {r s : Resource} (h : move ns r = .ok s) : Moved ns r s := by
  obtain ⟨r₁, r₂, h₁, h₂, rfl⟩ := move_eq_ok h
  have same {key : String} (hkey : key ∉ referenceFields) := get?_root_of_updates h₁ h₂ hkey
  have id₁ := (FieldRule.updateAll_frame h₁).1
  obtain ⟨id₂, root₂⟩ := FieldRule.updateAll_frame h₂
  obtain ⟨id₃, root₃, metadata₃⟩ := reannotated_moveInjection ns r₂
  have hid : (moveInjection ns r₂).id = (Relocation.place ns r).id := id₃.trans (id₂.trans id₁)
  have hgvk : (Relocation.place ns r).id.gvk = r.id.gvk := by rw [place_id]
  refine ⟨?gvk, ?name, ?place, ?root, ?metadata, ?service, ?subject⟩
  case gvk => rw [hid, hgvk]
  case name => rw [hid, place_id]
  case place => rw [hid, place_id]
  case root =>
    intro key hne hkey
    rw [root₃ key hne, same hkey, get?_root_place ns r hne]
  case metadata =>
    intro key hne
    have hmetadata : r₂.metadata? = (Relocation.place ns r).metadata? := by
      unfold Resource.metadata? Json.Object.sub?
      rw [same (by decide : "metadata" ∉ referenceFields)]
    rw [metadata₃ key hne, ← metadataField?_place]
    unfold Resource.metadataField?
    rw [hmetadata]
  case service =>
    -- The subjects and the certificate, which follow later, are in other fields than the services.
    intro rule hrule hadm w hw
    have back : rule.path.LeadsTo r₁.root w := by
      refine hw.congr fun seg hseg => ?_
      rw [root₃ _ (head_ne_metadata (List.mem_append_left _ hrule) hseg)]
      exact (root₂ _ (head_ne_head rule hrule seg hseg)).symm
    rw [← hgvk] at hadm
    exact eq_of_service h₁ hrule hadm back
  case subject =>
    intro rule hrule hadm w hw
    have back : rule.path.LeadsTo r₂.root w :=
      hw.of_apart (fun seg hseg => head_ne_metadata (List.mem_append_right _ hrule) hseg)
        fun key hkey => (root₃ key hkey).symm
    rw [← hgvk, ← id₁] at hadm
    exact exists_of_subject h₂ hrule hadm back

/-- A service that a resource of some kind names is in the new namespace after a move. -/
theorem Moved.service_ofKind {ns : String} {r s : Resource} (h : Moved ns r s) {kind : String}
    {path : FieldPath} (hrule : .ofKind kind path ∈ serviceNamespaces)
    (hkind : r.id.gvk.kind = kind) {w : Value} (hw : path.LeadsTo s.root w) : w = .string ns :=
  h.service _ hrule ((FieldRule.admits_ofKind ..).2 hkind) w hw

/-- A service account that a binding of some kind is for is in the new namespace after a move. -/
theorem Moved.subject_ofKind {ns : String} {r s : Resource} (h : Moved ns r s) {kind : String}
    {path : FieldPath} (hrule : .ofKind kind path ∈ subjects) (hkind : r.id.gvk.kind = kind)
    {subject : Object} (hw : path.LeadsTo s.root (.object subject))
    (haccount : Json.Object.text? subject "kind" = some "ServiceAccount") :
    Fields.get? subject "namespace" = some (.string ns) := by
  obtain ⟨old, hold⟩ := h.subject _ hrule ((FieldRule.admits_ofKind ..).2 hkind) _ hw
  obtain rfl := Value.object.inj hold
  unfold moveSubject at haccount ⊢
  split
  · rw [Fields.get?_insert, if_pos rfl]
  · case isFalse hkind =>
    rw [if_neg hkind] at haccount
    exact absurd haccount hkind

end Relocation

end ProviderAssets
