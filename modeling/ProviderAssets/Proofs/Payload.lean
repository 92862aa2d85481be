import ProviderAssets.Proofs.Conservation
import ProviderAssets.Proofs.Identity
import ProviderAssets.Proofs.References

/-!
# What an import leaves of a resource

The stages write to a few places of a resource. `Release.assets_frame` says that nothing else
changes: the fields of a shipped resource are those of the resource that it is made of, in the same
order and with the same values, apart from the places that are listed in `PayloadFrame` (outside the
metadata), `Resource.Frame` (in the metadata) and `Resource.AnnotationFrame` (in the annotations).

Values are compared entry by entry (`FieldPath.DiffersAt`, `Fields.SameBut`), without recourse to the
functions that write them.
-/

namespace ProviderAssets

open Json (Object Value)

/-! ## Values that differ along a path -/

namespace FieldPath

variable {R : Value → Value → Prop} {o o' : Object}

/-- The values that a segment leads to from the value in its field are related: that value, or the
items of the array that it is. -/
def Beyond (R : Value → Value → Prop) : Segment → Value → Value → Prop
  | .field _ => R
  | .items _ => InItems R

/-- `w` is `v` apart from the values that the path leads to, which `R` relates to each other. All
fields and items are compared one by one, in order. -/
def DiffersAt (R : Value → Value → Prop) : FieldPath → Value → Value → Prop
  | [] => R
  | seg :: rest => fun v w => w = v ∨ ∃ o o', v = .object o ∧ w = .object o' ∧
      Fields.Alike (fun key x y => y = x ∨ key = seg.name ∧ Beyond (DiffersAt R rest) seg x y) o o'

/-- What is rewritten along a path differs there alone. -/
theorem Rewrites.differsAt {S : Value → Value → Prop} (himp : ∀ x y, R x y → S x y) :
    ∀ {path : FieldPath} {v w : Value}, Rewrites R path v w → DiffersAt S path v w
  | [], v, w, h => himp v w h
  | seg :: rest, v, w, h => by
    obtain ⟨o, rfl, ⟨-, rfl⟩ | ⟨x, y, hx, hxy, rfl⟩⟩ := h
    · exact .inl rfl
    · have leave (key : String) (z : Value) :
          z = z ∨ key = seg.name ∧ Beyond (DiffersAt S rest) seg z z := .inl rfl
      have change : y = x ∨ seg.name = seg.name ∧ Beyond (DiffersAt S rest) seg x y := by
        cases seg with
        | field name =>
          rcases hxy with hxy | ⟨-, rfl, rfl⟩
          · exact .inr ⟨rfl, hxy.differsAt himp⟩
          · exact .inl rfl
        | items name =>
          rcases hxy with ⟨xs, ys, rfl, rfl, hall⟩ | ⟨rfl, rfl⟩
          · exact .inr ⟨rfl, xs, ys, rfl, rfl, hall.imp fun _ _ => Rewrites.differsAt himp⟩
          · exact .inl rfl
      exact .inr ⟨o, _, rfl, rfl, Fields.Alike.insert leave hx change⟩

/-- Without one of their fields, objects differ no more than with it. -/
theorem DiffersAt.erase {seg : Segment} {rest : FieldPath}
    (h : DiffersAt R (seg :: rest) (.object o) (.object o')) (key : String) :
    DiffersAt R (seg :: rest) (.object (Fields.erase o key)) (.object (Fields.erase o' key)) := by
  rcases h with h | ⟨u, u', hu, hu', halike⟩
  · cases h
    exact .inl rfl
  · cases hu
    cases hu'
    exact .inr ⟨_, _, rfl, rfl, halike.erase key⟩

/-- An update leaves the keys of an object in order. -/
theorem keys_updateFrom {α : Type} {t : Target α} {f : α → ExceptT Error Id α}
    {fault : String → String → Error} {path : FieldPath}
    (h : updateFrom (m := Id) t f fault path o = Except.ok o') :
    Fields.keys o' = Fields.keys o := by
  cases path with
  | nil =>
    cases h
    rfl
  | cons seg rest => exact (updateFrom_eq_ok.1 h).keys_eq

end FieldPath

/-- Rules leave the keys of a resource in order. -/
theorem FieldRule.keys_updateAll {α : Type} {t : Target α} {f : α → ExceptT Error Id α} :
    ∀ {rules : List FieldRule} {r s : Resource},
      updateAll (m := Id) rules t f r = Except.ok s → Fields.keys s.root = Fields.keys r.root
  | [], r, s, h => by
    cases h
    rfl
  | rule :: rules, r, s, h => by
    unfold updateAll at h
    rw [List.foldlM_cons] at h
    obtain ⟨r', hr', h⟩ := bindT_eq_ok h
    have first : Fields.keys r'.root = Fields.keys r.root := by
      unfold update at hr'
      split at hr'
      · obtain ⟨-, fault, hroot⟩ := FieldPath.update_eq_ok hr'
        exact FieldPath.keys_updateFrom hroot
      · cases hr'
        rfl
    exact (keys_updateAll h).trans first

/-! ## Frames -/

/-- A text is replaced by the namespace. -/
def IsMovedText (ns : String) (v w : Value) : Prop := (∃ old, v = .string old) ∧ w = .string ns

/-- A subject is as before, or it is a service account and has the namespace. -/
def IsMovedSubject (ns : String) (v w : Value) : Prop :=
  w = v ∨ ∃ o o', v = .object o ∧ w = .object o' ∧
    Json.Object.text? o "kind" = some "ServiceAccount" ∧ Fields.SameBut ["namespace"] o o' ∧
    Fields.get? o' "namespace" = some (.string ns)

/-- What changes in a resource of some kind outside the metadata: `w` is what `v` becomes. -/
structure PayloadFrame (ns : String) (kind : String) (v w : Value) : Prop where
  /-- The namespaces of the services of webhooks. -/
  webhook : kind ∈ ["MutatingWebhookConfiguration", "ValidatingWebhookConfiguration"] →
    FieldPath.DiffersAt (IsMovedText ns) [.items "webhooks", .field "clientConfig",
      .field "service", .field "namespace"] v w
  /-- The namespace of the service that converts custom resources. -/
  conversion : kind = "CustomResourceDefinition" →
    FieldPath.DiffersAt (IsMovedText ns) [.field "spec", .field "conversion", .field "webhook",
      .field "clientConfig", .field "service", .field "namespace"] v w
  /-- The namespace of the service behind an API. -/
  apiService : kind = "APIService" →
    FieldPath.DiffersAt (IsMovedText ns) [.field "spec", .field "service", .field "namespace"] v w
  /-- The namespaces of the service accounts that roles are bound to. -/
  subject : kind ∈ ["RoleBinding", "ClusterRoleBinding"] →
    FieldPath.DiffersAt (IsMovedSubject ns) [.items "subjects"] v w
  /-- Nothing else. -/
  other : kind ∉ ["MutatingWebhookConfiguration", "ValidatingWebhookConfiguration",
    "CustomResourceDefinition", "APIService", "RoleBinding", "ClusterRoleBinding"] → w = v

namespace Resource

open Annotation (injectFrom injectBundle servingSecret)

/-- The value of all fields but the metadata. -/
def payload (r : Resource) : Value := .object (Fields.erase r.root "metadata")

/-- What changes in a resource from which one is made that is shipped to the namespace `ns`, apart
from its annotations. -/
structure Frame (ns : String) (r t : Resource) : Prop where
  /-- Group, version and kind stay. -/
  gvk : t.id.gvk = r.id.gvk
  /-- The fields are the same, in the same order. -/
  keys : Fields.keys t.root = Fields.keys r.root
  /-- Outside the metadata the namespaces of references change. -/
  payload : PayloadFrame ns r.id.gvk.kind r.payload t.payload
  /-- In the metadata the namespace, the labels and the annotations change. -/
  metadata : ∃ o o', r.metadata? = some o ∧ t.metadata? = some o' ∧
    Fields.SameBut ["namespace", "labels", "annotations"] o o'
  /-- The namespace is set if the resource belongs to one. -/
  place : t.metadataField? "namespace" =
    if Relocation.isNamespaced r then some (.string ns) else r.metadataField? "namespace"
  /-- Two labels are set. Anything but an object counts as no labels. -/
  labels : ∃ l, t.labels? = some l ∧
    Fields.SameBut [Label.provider, Label.installed] (r.labels?.getD []) l

/-- The annotations that certificates are asked for by. -/
def certificateKeys : List String := [injectFrom, injectBundle, servingSecret]

/-- What changes in the annotations of a component. -/
structure AnnotationFrame (r t : Resource) : Prop where
  /-- Annotations that are there change under the keys for certificates alone. -/
  present : ∀ o, r.annotations? = some o → ∃ o', t.annotations? = some o' ∧
    Fields.SameBut certificateKeys o o'
  /-- Where there are none, nothing changes, or the secret of a service is put there. -/
  absent : r.annotations? = none →
    t.metadataField? "annotations" = r.metadataField? "annotations" ∨
      ∃ secret, t.annotations? = some [(servingSecret, .string secret)]

end Resource

/-! ## Changes of the metadata -/

namespace Json.Object

/-- An object that is changed in a field where there is one differs there alone. -/
theorem sameBut_updateSub {names : List String} {key : String} (hkey : key ∈ names) (o : Object)
    (f : Object → Object) : Fields.SameBut names o (updateSub o key f) :=
  Fields.SameBut.insert o _ hkey

/-- So does one where nothing is changed if there is none. -/
theorem sameBut_modifySub {names : List String} {key : String} (hkey : key ∈ names) (o : Object)
    (f : Object → Object) : Fields.SameBut names o (modifySub o key f) := by
  unfold modifySub
  split
  · exact Fields.SameBut.insert o _ hkey
  · exact Fields.SameBut.refl names o

end Json.Object

namespace Resource

/-- `t` is `r` with other metadata. -/
structure OnlyMetadata (r t : Resource) : Prop where
  /-- The fields are the same, in the same order. -/
  keys : Fields.keys t.root = Fields.keys r.root
  /-- Outside the metadata nothing changes. -/
  payload : t.payload = r.payload
  /-- In the metadata the namespace, the labels and the annotations change. -/
  metadata : ∃ o o', r.metadata? = some o ∧ t.metadata? = some o' ∧
    Fields.SameBut ["namespace", "labels", "annotations"] o o'

namespace OnlyMetadata

variable {r s t : Resource} {o : Object}

/-- A resource with metadata that is not changed. -/
protected theorem refl (ho : r.metadata? = some o) : OnlyMetadata r r :=
  ⟨rfl, rfl, o, o, ho, ho, .refl _ o⟩

/-- Changes one after the other. -/
protected theorem trans (hrs : OnlyMetadata r s) (hst : OnlyMetadata s t) : OnlyMetadata r t := by
  obtain ⟨o, o', ho, ho', hsame⟩ := hrs.metadata
  obtain ⟨u, u', hu, hu', hsame'⟩ := hst.metadata
  obtain rfl : u = o' := Option.some.inj (hu.symm.trans ho')
  exact ⟨hst.keys.trans hrs.keys, hst.payload.trans hrs.payload, o, u', ho, hu',
    hsame.trans hsame'⟩

/-- A change of metadata that are there. -/
theorem updateMetadata (ho : r.metadata? = some o) {f : Object → Object}
    (hf : Fields.SameBut ["namespace", "labels", "annotations"] o (f o)) :
    OnlyMetadata r (r.updateMetadata f) := by
  obtain ⟨v, hv, -⟩ := Option.bind_eq_some_iff.1 ho
  refine ⟨Fields.keys_insert_of_found hv _, ?_, o, f o, ho, ?_, hf⟩
  · exact congrArg Value.object
      (Fields.SameBut.insert r.root _ (List.mem_singleton.2 rfl)).erase_eq
  · rw [metadata?_updateMetadata, ho]
    rfl

/-- A change of the labels or of the annotations. -/
theorem updateSub (ho : r.metadata? = some o) {key : String} (f : Object → Object)
    (hkey : key ∈ ["namespace", "labels", "annotations"]) :
    OnlyMetadata r (r.updateMetadata (Json.Object.updateSub · key f)) :=
  updateMetadata ho (Json.Object.sameBut_updateSub hkey o f)

/-- A change of labels or annotations that are there. -/
theorem modifySub (ho : r.metadata? = some o) {key : String} (f : Object → Object)
    (hkey : key ∈ ["namespace", "labels", "annotations"]) :
    OnlyMetadata r (r.updateMetadata (Json.Object.modifySub · key f)) :=
  updateMetadata ho (Json.Object.sameBut_modifySub hkey o f)

end OnlyMetadata

end Resource

/-! ## References that follow -/

namespace Relocation

variable {ns : String} {p : Provider} {r r₁ r₂ s : Resource} {rule : FieldRule}

/-- What a visit puts in place of a text. -/
theorem isMovedText_of_visits {v w : Value}
    (h : FieldPath.Visits .text (fun _ => pure ns) v w) : IsMovedText ns v w := by
  obtain ⟨old, b, hold, hb, rfl⟩ := h
  cases hb
  exact ⟨⟨old, Value.eq_string hold⟩, rfl⟩

/-- What a visit puts in place of a subject. -/
theorem isMovedSubject_of_visits {v w : Value}
    (h : FieldPath.Visits .object (fun o => pure (moveSubject ns o)) v w) :
    IsMovedSubject ns v w := by
  obtain ⟨o, b, ho, hb, rfl⟩ := h
  cases hb
  obtain rfl := Value.eq_object ho
  unfold moveSubject
  split
  · case isTrue haccount =>
    refine .inr ⟨o, _, rfl, rfl, haccount, .insert o _ (List.mem_singleton.2 rfl), ?_⟩
    rw [Fields.get?_insert, if_pos rfl]
  · exact .inl rfl

section

variable
  (h₁ : FieldRule.updateAll (m := Id) serviceNamespaces .text (fun _ => pure ns) r = Except.ok r₁)
  (h₂ : FieldRule.updateAll (m := Id) subjects .object (fun s => pure (moveSubject ns s)) r₁ =
    Except.ok r₂)
include h₁ h₂

/-- While references follow, a resource of a kind that names services differs in their namespaces. -/
theorem differsAt_service (hrule : rule ∈ serviceNamespaces)
    (hadm : rule.selector.admits r.id.gvk = true) :
    FieldPath.DiffersAt (IsMovedText ns) rule.path r.payload r₂.payload := by
  have hid : r₁.id = r.id := (FieldRule.updateAll_frame h₁).1
  -- The kind has no subjects.
  obtain ⟨-, -, hapart⟩ := List.pairwise_append.1 rules_apart
  obtain rfl : r₂ = r₁ := FieldRule.updateAll_of_not_admits
    (fun other hother => hid ▸ hapart rule hrule other hother _ hadm) h₂
  have hne : rule.path ≠ [] := path_ne_nil rule (List.mem_append_left _ hrule)
  have hrew := FieldRule.rewrites_of_updateAll serviceNamespaces_apart h₁ hrule hadm hne
  have hdiffers := hrew.differsAt fun _ _ => isMovedText_of_visits
  obtain ⟨seg, rest, hpath⟩ := List.exists_cons_of_ne_nil hne
  rw [hpath] at hdiffers ⊢
  exact hdiffers.erase "metadata"

/-- A resource of a kind that has subjects differs in these. -/
theorem differsAt_subject (hrule : rule ∈ subjects)
    (hadm : rule.selector.admits r.id.gvk = true) :
    FieldPath.DiffersAt (IsMovedSubject ns) rule.path r.payload r₂.payload := by
  -- The kind names no services.
  obtain ⟨-, -, hapart⟩ := List.pairwise_append.1 rules_apart
  obtain rfl : r₁ = r := FieldRule.updateAll_of_not_admits
    (fun other hother hother' => hapart other hother rule hrule _ hother' hadm) h₁
  have hne : rule.path ≠ [] := path_ne_nil rule (List.mem_append_right _ hrule)
  have hrew := FieldRule.rewrites_of_updateAll subjects_apart h₂ hrule hadm hne
  have hdiffers := hrew.differsAt fun _ _ => isMovedSubject_of_visits
  obtain ⟨seg, rest, hpath⟩ := List.exists_cons_of_ne_nil hne
  rw [hpath] at hdiffers ⊢
  exact hdiffers.erase "metadata"

/-- What changes outside the metadata while references follow. -/
theorem payloadFrame_of_updates : PayloadFrame ns r.id.gvk.kind r.payload r₂.payload := by
  have admits {kind : String} {path : FieldPath} (hkind : r.id.gvk.kind = kind) :
      (FieldRule.ofKind kind path).selector.admits r.id.gvk = true :=
    (FieldRule.admits_ofKind ..).2 hkind
  -- Each kind has one rule.
  refine ⟨fun hkind => ?_, fun hkind => ?_, fun hkind => ?_, fun hkind => ?_, fun hkind => ?_⟩
  · simp only [List.mem_cons, List.not_mem_nil, or_false] at hkind
    rcases hkind with hkind | hkind
    · exact differsAt_service h₁ h₂ mutatingWebhooks_mem (admits hkind)
    · exact differsAt_service h₁ h₂ validatingWebhooks_mem (admits hkind)
  · exact differsAt_service h₁ h₂ conversions_mem (admits hkind)
  · exact differsAt_service h₁ h₂ apiServices_mem (admits hkind)
  · simp only [List.mem_cons, List.not_mem_nil, or_false] at hkind
    rcases hkind with hkind | hkind
    · exact differsAt_subject h₁ h₂ roleBindings_mem (admits hkind)
    · exact differsAt_subject h₁ h₂ clusterRoleBindings_mem (admits hkind)
  · -- The kind is none that a rule is for, so that all of them are skipped.
    have hskip := not_admits_of_gvk hkind
    have hid : r₁.id = r.id := (FieldRule.updateAll_frame h₁).1
    obtain rfl : r₂ = r₁ := FieldRule.updateAll_of_not_admits
      (fun rule hrule => hid ▸ hskip rule (List.mem_append_right _ hrule)) h₂
    obtain rfl : r₂ = r := FieldRule.updateAll_of_not_admits
      (fun rule hrule => hskip rule (List.mem_append_left _ hrule)) h₁
    rfl

end

/-- Placing a resource changes the metadata alone. -/
theorem onlyMetadata_place {o : Object} (ns : String) (ho : r.metadata? = some o) :
    r.OnlyMetadata (place ns r) := by
  unfold place
  split
  · have hsame : Fields.SameBut ["namespace", "labels", "annotations"] o
        (Resource.withNamespace (some ns) o) := .insert o _ (by decide)
    obtain ⟨keys, payload, metadata⟩ := Resource.OnlyMetadata.updateMetadata ho hsame
    exact ⟨keys, payload, metadata⟩
  · exact .refl ho

/-- So does moving the certificate that a resource refers to. -/
theorem onlyMetadata_moveInjection {o : Object} (ns : String) (ho : r.metadata? = some o) :
    r.OnlyMetadata (moveInjection ns r) := by
  unfold moveInjection
  split
  · exact .modifySub ho _ (by decide)
  · exact .refl ho

/-- A move leaves the labels, and then two of them are set. -/
theorem labels_label (h : move ns r = .ok s) :
    ∃ l, (s.label p).labels? = some l ∧
      Fields.SameBut [Label.provider, Label.installed] (r.labels?.getD []) l := by
  have hlabels : s.labels? = r.labels? := by
    refine Resource.labels?_congr ?_
    rw [(moved_of_move h).metadata _ (by decide), if_neg (by simp)]
  refine ⟨_, Resource.labels?_updateLabels _ _, ?_⟩
  rw [hlabels]
  have hprovider : Label.provider ∈ [Label.provider, Label.installed] := by decide
  have hinstalled : Label.installed ∈ [Label.provider, Label.installed] := by decide
  exact (Fields.SameBut.insert _ _ hprovider).trans (Fields.SameBut.insert _ _ hinstalled)

/-- The frame of a resource that is moved and labelled. -/
theorem frame_label {o : Object} (ho : r.metadata? = some o) (h : move ns r = .ok s) :
    r.Frame ns (s.label p) := by
  have hmoved := moved_of_move h
  have hlabels := labels_label (p := p) h
  obtain ⟨r₁, r₂, h₁, h₂, rfl⟩ := move_eq_ok h
  -- First the resource is placed, then references follow, and then its metadata change again.
  have hplace := onlyMetadata_place ns ho
  obtain ⟨u, o₁, hu, ho₁, hsame₁⟩ := hplace.metadata
  have hkeys : Fields.keys r₂.root = Fields.keys (place ns r).root :=
    (FieldRule.keys_updateAll h₂).trans (FieldRule.keys_updateAll h₁)
  have ho₂ : r₂.metadata? = some o₁ := (metadata?_of_updates h₁ h₂).trans ho₁
  have hinjection := onlyMetadata_moveInjection ns ho₂
  obtain ⟨-, o₃, -, ho₃, -⟩ := hinjection.metadata
  have hlast : r₂.OnlyMetadata ((moveInjection ns r₂).label p) :=
    hinjection.trans (.updateSub ho₃ _ (by decide))
  obtain ⟨u', o', hu', ho', hsame'⟩ := hlast.metadata
  refine ⟨hmoved.gvk, ?_, ?_, ?_, ?_, hlabels⟩
  · rw [hlast.keys, hkeys, hplace.keys]
  · rw [hlast.payload, ← hplace.payload]
    have hgvk : (place ns r).id.gvk = r.id.gvk := by rw [place_id]
    rw [← hgvk]
    exact payloadFrame_of_updates h₁ h₂
  · obtain rfl : u' = o₁ := Option.some.inj (hu'.symm.trans ho₂)
    exact ⟨u, o', hu, ho', hsame₁.trans hsame'⟩
  · rw [Resource.label, Resource.metadataField?_updateLabels _ _ (by decide),
      hmoved.metadata _ (by decide)]
    cases isNamespaced r <;> rfl

end Relocation

/-! ## Annotations -/

namespace Resource

variable {ns : String} {p : Provider} {bound : Bindings} {r s t : Resource}

/-- Other annotations leave what the frame is about. -/
theorem Frame.reannotated (h : r.Frame ns s) (hst : s.OnlyMetadata t) (re : s.Reannotated t) :
    r.Frame ns t := by
  obtain ⟨o, o', ho, ho', hsame⟩ := h.metadata
  obtain ⟨u, u', hu, hu', hsame'⟩ := hst.metadata
  obtain rfl : u = o' := Option.some.inj (hu.symm.trans ho')
  refine ⟨?_, hst.keys.trans h.keys, ?_, ⟨o, u', ho, hu', hsame.trans hsame'⟩, ?_, ?_⟩
  · rw [re.id]
    exact h.gvk
  · rw [hst.payload]
    exact h.payload
  · rw [re.metadata _ (by decide)]
    exact h.place
  · rw [labels?_congr (re.metadata _ (by decide))]
    exact h.labels

/-- The platform changes the metadata of a resource alone. -/
theorem onlyMetadata_forPlatform {o : Object} (ho : r.metadata? = some o)
    (h : r.forPlatform bound = some t) : r.OnlyMetadata t := by
  obtain rfl | rfl | ⟨-, secret, rfl⟩ := forPlatform_cases h
  · exact .refl ho
  · exact .modifySub ho _ (by decide)
  · exact .updateSub ho _ (by decide)

/-- A request that is changed leaves all annotations but those for certificates. -/
theorem sameBut_requestBundle (o : Object) : Fields.SameBut certificateKeys o (requestBundle o) := by
  have hfrom : Annotation.injectFrom ∈ certificateKeys := by decide
  have hbundle : Annotation.injectBundle ∈ certificateKeys := by decide
  unfold requestBundle
  split
  · exact (Fields.SameBut.erase o hfrom).trans (.insert _ _ hbundle)
  · exact .erase o hfrom

/-- The frame of the annotations of a resource that is moved, where nothing is put that was not there. -/
theorem annotations_move (h : Relocation.move ns r = .ok s) :
    (∀ o, r.annotations? = some o → ∃ o', s.annotations? = some o' ∧
      Fields.SameBut certificateKeys o o') ∧
    (r.annotations? = none → s.metadataField? "annotations" = r.metadataField? "annotations") := by
  obtain ⟨u, rfl, same⟩ := Relocation.exists_eq_moveInjection h
  have hannotations : u.annotations? = r.annotations? := annotations?_congr same
  rw [← hannotations, ← same]
  unfold Relocation.moveInjection
  split
  · constructor
    · intro o ho
      rw [annotations?_modifyAnnotations, ho]
      exact ⟨_, rfl, .insert o _ (by decide)⟩
    · exact fun hnone => metadataField?_modifyAnnotations_of_none u _ _ hnone
  · exact ⟨fun o ho => ⟨o, ho, .refl _ o⟩, fun _ => rfl⟩

/-- The frame of the annotations of a resource on the platform. -/
theorem annotationFrame_forPlatform (h : r.forPlatform bound = some t) : r.AnnotationFrame t := by
  obtain rfl | rfl | ⟨-, secret, rfl⟩ := forPlatform_cases h
  · exact ⟨fun o ho => ⟨o, ho, .refl _ o⟩, fun _ => .inl rfl⟩
  · constructor
    · intro o ho
      rw [annotations?_modifyAnnotations, ho]
      exact ⟨_, rfl, sameBut_requestBundle o⟩
    · exact fun hnone => .inl (metadataField?_modifyAnnotations_of_none r _ _ hnone)
  · constructor
    · intro o ho
      rw [annotations?_updateAnnotations, ho]
      exact ⟨_, rfl, .insert o _ (by decide)⟩
    · intro hnone
      rw [annotations?_updateAnnotations, hnone]
      exact .inr ⟨secret, rfl⟩

end Resource

/-! ## Runs -/

namespace Release

variable {config : Config} {exclude : Option Exclusion} {p : Provider} {release : Release}
  {catalog : ImageCatalog} {a : Assets} {bound : Bindings} {r t : Resource}

/-- The frame of a prepared resource. -/
theorem Prepares.frame (h : Prepares config p bound r t) (hr : r.IsCoherent) :
    r.Frame config.targetNamespace t := by
  obtain ⟨s, hs, ht⟩ := h
  obtain ⟨o, ho⟩ := hr.exists_metadata
  have hframe : r.Frame config.targetNamespace (s.label p) := Relocation.frame_label ho hs
  obtain ⟨-, o', -, ho', -⟩ := hframe.metadata
  exact hframe.reannotated (Resource.onlyMetadata_forPlatform ho' ht)
    (Resource.reannotated_forPlatform ht)

/-- The frame of the annotations of a prepared resource. -/
theorem Prepares.annotationFrame (h : Prepares config p bound r t) : r.AnnotationFrame t := by
  obtain ⟨s, hs, ht⟩ := h
  -- A move changes annotations that are there, and only the platform may make new ones.
  obtain ⟨hsome, hnone⟩ := Resource.annotations_move hs
  have same : (s.label p).metadataField? "annotations" = s.metadataField? "annotations" :=
    Resource.metadataField?_updateLabels s _ (by decide)
  have hannotations : (s.label p).annotations? = s.annotations? := Resource.annotations?_congr same
  have hplatform := Resource.annotationFrame_forPlatform ht
  constructor
  · intro o ho
    obtain ⟨o', ho', hsame⟩ := hsome o ho
    obtain ⟨o'', ho'', hsame'⟩ := hplatform.present o' (hannotations.trans ho')
    exact ⟨o'', ho'', hsame.trans hsame'⟩
  · intro ho
    have hmoved : s.annotations? = none := (Resource.annotations?_congr (hnone ho)).trans ho
    rw [← hnone ho, ← same]
    exact hplatform.absent (hannotations.trans hmoved)

/-- The frame of a role or account that all stages go over, with any annotations. -/
theorem PreparesRbac.frame (h : PreparesRbac config p bound r t) (hr : r.IsCoherent) :
    r.Frame config.targetNamespace t := by
  obtain ⟨s, hs, rfl⟩ := h
  have hframe := hs.frame hr
  obtain ⟨-, o, -, ho, -⟩ := hframe.metadata
  exact hframe.reannotated (.updateSub ho _ (by decide)) (.updateAnnotations s _)

/-- In a run that succeeds, every component and every role and account has what the resource has that
it is made of, apart from namespaces, the labels of the provider, and annotations: those for
certificates in a component, and all of them in a role or account. -/
theorem assets_frame (h : release.assets config exclude p catalog = .ok a) :
    ∃ all core rbac, Manifest.ofText release.components = .ok all ∧ a.MadeOf config p core rbac ∧
      List.Forall₂ (fun r t => r.Frame config.targetNamespace t ∧ r.AnnotationFrame t)
        (all.resources.filter (isComponent exclude)) core.resources ∧
      List.Forall₂ (fun r t => r.Frame config.targetNamespace t)
        (all.resources.filter (·.kind.isRbac)) rbac.resources := by
  obtain ⟨all, prepared, hall, hprepared, hold, -⟩ := assets_eq_ok h
  obtain ⟨moved, bound, -, -, hres, hkey⟩ := prepare_eq_ok hprepared
  have shares := sharesOut_divide exclude hres hkey
  have coherent := (Manifest.isCoherent_ofText hall).resources
  have components : ∀ r ∈ all.resources.filter (isComponent exclude), r.IsCoherent :=
    fun r hr => coherent r (List.mem_filter.1 hr).1
  have accounts : ∀ r ∈ all.resources.filter (·.kind.isRbac), r.IsCoherent :=
    fun r hr => coherent r (List.mem_filter.1 hr).1
  refine ⟨all, _, _, hall, hold, ?_, ?_⟩
  · refine ((List.forall₂_and_left ..).2 ⟨components, shares.components⟩).imp ?_
    exact fun r t hrt => ⟨hrt.2.frame hrt.1, hrt.2.annotationFrame⟩
  · refine ((List.forall₂_and_left ..).2 ⟨accounts, shares.accounts⟩).imp ?_
    exact fun r t hrt => hrt.2.frame hrt.1

/-- A release with references: to the service behind an API, and to an account that a role is bound
to. -/
def referring : Release where
  metadata := []
  components := "\x7bapiVersion: v1, kind: APIService, metadata: \x7bname: a\x7d,
spec: \x7bservice: \x7bnamespace: s\x7d\x7d\x7d
---
\x7bapiVersion: v1, kind: RoleBinding, metadata: \x7bname: b\x7d,
subjects: [\x7bkind: ServiceAccount\x7d]\x7d
"

/-- The API service and the binding keep what they have. -/
theorem referring_frame :
    ∃ a all, ∃ core rbac : Manifest,
      referring.assets .standard none sampleProvider .empty = .ok a ∧
        Manifest.ofText referring.components = .ok all ∧ core.size = 1 ∧ rbac.size = 1 ∧
        List.Forall₂ (fun r t => r.Frame "openshift-cluster-api" t ∧ r.AnnotationFrame t)
          (all.resources.filter (isComponent none)) core.resources ∧
        List.Forall₂ (fun r t => r.Frame "openshift-cluster-api" t)
          (all.resources.filter (·.kind.isRbac)) rbac.resources := by
  obtain ⟨a, ha, hcounts⟩ := exists_ok_of_toOption (b := (1, 1))
    (x := referring.assets .standard none sampleProvider .empty)
    (f := fun a => (a.components, a.rbac)) (by decide +kernel)
  obtain ⟨hcomponents, haccounts⟩ := Prod.mk.inj hcounts
  obtain ⟨all, core, rbac, hall, hold, components, accounts⟩ := assets_frame ha
  have hcore := hold.components
  have hrbac := hold.rbac
  exact ⟨a, all, core, rbac, ha, hall, by omega, by omega, components, accounts⟩

end Release

end ProviderAssets
