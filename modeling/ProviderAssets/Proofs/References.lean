import ProviderAssets.Proofs.Stages
import ProviderAssets.Proofs.Rewriting
import Mathlib.Data.List.TakeWhile

/-!
# References between resources

Resources refer to each other by name and namespace, at the places that `Site` lists. A move takes
resources and references with it by mechanisms of their own: the identity of a resource, the
namespace of a service, the subject of a binding, the text of an annotation.
`Manifest.links_of_relocate` says that these agree: what a reference names before is what it names
afterwards, and nothing else of the same group, version and kind.
-/

namespace ProviderAssets

open Json (Object Value)

/-! ## References to certificates -/

/-- Characters before the first one of a kind are not of that kind. -/
theorem Text.not_mem_takeWhile_ne (c : Char) (cs : List Char) : c ∉ cs.takeWhile (· ≠ c) := by
  intro h
  have hne := List.mem_takeWhile_imp h
  simp at hne

/-- What is before the first `c`, if the text goes on with it. -/
theorem Text.takeWhile_ne_append {c : Char} {before : List Char} (after : List Char)
    (hc : c ∉ before) : (before ++ c :: after).takeWhile (· ≠ c) = before := by
  have hbefore : ∀ x ∈ before, decide (x ≠ c) = true := by
    intro x hx
    refine decide_eq_true ?_
    rintro rfl
    exact hc hx
  rw [List.takeWhile_append_of_pos hbefore, List.takeWhile_cons_of_neg (by simp), List.append_nil]

/-- If anything follows what is before the first `c`, it starts with `c`. -/
theorem Text.eq_takeWhile_ne_append {c x : Char} {rest : List Char} : ∀ {cs : List Char},
    cs.drop (cs.takeWhile (· ≠ c)).length = x :: rest → cs = cs.takeWhile (· ≠ c) ++ c :: rest
  | [], h => by cases h
  | d :: ds, h => by
    by_cases hd : d = c
    · rw [List.takeWhile_cons_of_neg (by simpa using hd)] at h ⊢
      cases h
      rw [hd, List.nil_append]
    · rw [List.takeWhile_cons_of_pos (by simpa using hd)] at h ⊢
      rw [List.cons_append, ← eq_takeWhile_ne_append h]

/-- A text is cut at the first `c`, if it has one: there is none in the first part, and the two parts
with `c` in between are the text. -/
theorem Text.splitFirst_eq_some_iff {c : Char} {s before after : String} :
    splitFirst c s = some (before, after) ↔
      c ∉ before.toList ∧ s.toList = before.toList ++ c :: after.toList := by
  unfold splitFirst
  dsimp only
  constructor
  · intro h
    generalize hdrop : s.toList.drop (s.toList.takeWhile (· ≠ c)).length = rest at h
    cases rest with
    | nil => cases h
    | cons x rest =>
      cases h
      rw [String.toList_ofList, String.toList_ofList]
      exact ⟨not_mem_takeWhile_ne c _, eq_takeWhile_ne_append hdrop⟩
  · rintro ⟨hc, heq⟩
    rw [heq, takeWhile_ne_append _ hc, List.drop_left]
    simp

/-- A text is read as the reference that it is the text of, if there is no slash in the namespace. -/
theorem InjectionReference.ofText?_eq_some_iff {s : String} {ref : InjectionReference} :
    ofText? s = some ref ↔ '/' ∉ ref.ns.toList ∧ s = ref.text := by
  have htext : s = ref.text ↔ s.toList = ref.ns.toList ++ '/' :: ref.certificate.toList := by
    rw [← String.toList_inj]
    simp [text]
  rw [htext, ← Text.splitFirst_eq_some_iff]
  unfold ofText?
  obtain ⟨ns, certificate⟩ := ref
  simp [Option.map_eq_some_iff]

/-! ## Places of references -/

/-- What a reference names. -/
structure Referent where
  /-- The kind of the resource. -/
  kind : Kind
  /-- The namespace that it is in. -/
  ns : String
  /-- Its name. -/
  name : String
  deriving DecidableEq

namespace Referent

/-- Whether a resource is what a reference names. -/
def Names (ref : Referent) (r : Resource) : Prop :=
  r.kind = ref.kind ∧ r.id.ns = some ref.ns ∧ r.id.name = ref.name

/-- What an object with a name and an explicit namespace names. -/
def ofObject? (kind : Kind) (o : Object) : Option Referent := do
  let ns ← Json.Object.text? o "namespace"
  let name ← Json.Object.text? o "name"
  return { kind, ns, name }

/-- What the service of a webhook or of an API service names. -/
def ofService? (v : Value) : Option Referent := v.object?.bind (ofObject? .service)

/-- What the subject of a binding names, if it is a service account. -/
def ofSubject? (v : Value) : Option Referent := do
  let o ← v.object?
  if Json.Object.text? o "kind" = some "ServiceAccount" then ofObject? .serviceAccount o else none

/-- What an injection reference names. -/
def ofInjection (ref : InjectionReference) : Referent :=
  { kind := .certificate, ns := ref.ns, name := ref.certificate }

end Referent

/-- The places in a resource where it may refer to another one. -/
inductive Site where
  /-- The service of the webhook at an index of a webhook configuration. -/
  | webhook (index : Nat)
  /-- The service of the webhook that converts custom resources. -/
  | conversion
  /-- The service of an API service. -/
  | apiService
  /-- The subject at an index of a binding. -/
  | subject (index : Nat)
  /-- The certificate whose authority is to be put into a resource. -/
  | injection

/-- Whether resources of a kind have such a place. -/
def Site.isIn (kind : String) : Site → Bool
  | webhook _ => kind ∈ ["MutatingWebhookConfiguration", "ValidatingWebhookConfiguration"]
  | conversion => kind = "CustomResourceDefinition"
  | apiService => kind = "APIService"
  | subject _ => kind ∈ ["RoleBinding", "ClusterRoleBinding"]
  | injection => true

namespace Relocation

/-- Where the services of webhooks are. -/
def webhookService : FieldPath := [.items "webhooks", .field "clientConfig", .field "service"]

/-- Where the service that converts custom resources is. -/
def conversionService : FieldPath :=
  [.field "spec", .field "conversion", .field "webhook", .field "clientConfig", .field "service"]

/-- Where the service of an API service is. -/
def apiServiceService : FieldPath := [.field "spec", .field "service"]

end Relocation

namespace Resource

open Relocation

/-- The value that a path leads to in a resource, where of each array the item with the next of some
indices is taken. -/
def at? (r : Resource) (path : FieldPath) (indices : List Nat) : Option Value :=
  path.at? indices (.object r.root)

/-- What a resource refers to at a place, if there is such a place in resources of its kind. -/
def referent? (r : Resource) (site : Site) : Option Referent :=
  if site.isIn r.id.gvk.kind then
    match site with
    | .webhook i => (r.at? webhookService [i]).bind Referent.ofService?
    | .conversion => (r.at? conversionService []).bind Referent.ofService?
    | .apiService => (r.at? apiServiceService []).bind Referent.ofService?
    | .subject i => (r.at? [.items "subjects"] [i]).bind Referent.ofSubject?
    | .injection =>
      (r.injectionText?.bind InjectionReference.ofText?).map Referent.ofInjection
  else none

end Resource

/-- At a place in the resource at the index `i` there is a reference to that at the index `j`. -/
def Manifest.Links (m : Manifest) (i : Nat) (site : Site) (j : Nat) : Prop :=
  ∃ r target ref, m.resources[i]? = some r ∧ m.resources[j]? = some target ∧
    r.referent? site = some ref ∧ ref.Names target

/-! ## References that follow a move -/

/-- The text in a field after a value was written to one. -/
theorem Json.Object.text?_insert (o : Object) (key other : String) (v : Value) :
    text? (Fields.insert o key v) other = if other = key then v.string? else text? o other := by
  unfold text?
  rw [Fields.get?_insert]
  split <;> rfl

namespace Relocation

variable {ns : String} {r s : Resource} {rule : FieldRule}

/-- A move rewrites the namespaces of the services that a resource names. -/
theorem rewrites_service (h : move ns r = .ok s) (hrule : rule ∈ serviceNamespaces)
    (hadm : rule.selector.admits r.id.gvk = true) :
    FieldPath.RewritesUnder (FieldPath.Visits .text fun _ => pure ns) rule.path r.root s.root := by
  obtain ⟨r₁, r₂, h₁, h₂, rfl⟩ := move_eq_ok h
  have hmem : rule ∈ serviceNamespaces ++ subjects := List.mem_append_left _ hrule
  have hne : rule.path ≠ [] := path_ne_nil rule hmem
  have hgvk : (place ns r).id.gvk = r.id.gvk := by rw [place_id]
  have hrew := FieldRule.rewrites_of_updateAll serviceNamespaces_apart h₁ hrule (hgvk ▸ hadm) hne
  obtain ⟨seg, rest, hpath⟩ := List.exists_cons_of_ne_nil hne
  have hseg : seg ∈ rule.path.head? := by rw [hpath]; rfl
  have hmetadata : seg.name ≠ "metadata" := head_ne_metadata hmem hseg
  -- The subjects and the certificate, which follow later, are in other fields.
  refine ⟨seg, rest, (place ns r).root, r₁.root, hpath, hrew, get?_root_place ns r hmetadata, ?_⟩
  rw [(reannotated_moveInjection ns r₂).root _ hmetadata]
  exact (FieldRule.updateAll_frame h₂).2 _ (head_ne_head rule hrule seg hseg)

/-- A move rewrites the subjects of a binding. -/
theorem rewrites_subject (h : move ns r = .ok s) (hrule : rule ∈ subjects)
    (hadm : rule.selector.admits r.id.gvk = true) :
    FieldPath.RewritesUnder (FieldPath.Visits .object fun o => pure (moveSubject ns o)) rule.path
      r.root s.root := by
  obtain ⟨r₁, r₂, h₁, h₂, rfl⟩ := move_eq_ok h
  have hmem : rule ∈ serviceNamespaces ++ subjects := List.mem_append_right _ hrule
  have hne : rule.path ≠ [] := path_ne_nil rule hmem
  obtain ⟨hid, hroot⟩ := FieldRule.updateAll_frame h₁
  have hgvk : r₁.id.gvk = r.id.gvk := by rw [hid, place_id]
  have hrew := FieldRule.rewrites_of_updateAll subjects_apart h₂ hrule (hgvk ▸ hadm) hne
  obtain ⟨seg, rest, hpath⟩ := List.exists_cons_of_ne_nil hne
  have hseg : seg ∈ rule.path.head? := by rw [hpath]; rfl
  have hmetadata : seg.name ≠ "metadata" := head_ne_metadata hmem hseg
  -- The services, which are moved before, are in other fields.
  have hbefore : Fields.get? r₁.root seg.name = Fields.get? r.root seg.name := by
    rw [← get?_root_place ns r hmetadata]
    exact hroot _ fun other hother seg' hseg' =>
      (head_ne_head other hother seg' hseg' rule hrule seg hseg).symm
  exact ⟨seg, rest, r₁.root, r₂.root, hpath, hrew, hbefore,
    (reannotated_moveInjection ns r₂).root _ hmetadata⟩

/-- A name stays with another namespace. -/
theorem ofObject?_insert {kind : Kind} {o : Object} {ref : Referent}
    (h : Referent.ofObject? kind o = some ref) :
    Referent.ofObject? kind (Fields.insert o "namespace" (.string ns)) = some { ref with ns } := by
  obtain ⟨old, -, h⟩ := Option.bind_eq_some_iff.1 h
  obtain ⟨name, hname, h⟩ := Option.bind_eq_some_iff.1 h
  cases h
  unfold Referent.ofObject?
  rw [Json.Object.text?_insert, if_pos rfl, Json.Object.text?_insert, if_neg (by decide), hname]
  rfl

/-- What a resource names as a service at a path to one is the same service in the new namespace. -/
theorem service_follows (h : move ns r = .ok s) (path : FieldPath) (hpath : path ≠ [])
    {kind : String} (hrule : .ofKind kind (path ++ [.field "namespace"]) ∈ serviceNamespaces)
    (hkind : r.id.gvk.kind = kind) {is : List Nat} {ref : Referent}
    (href : (r.at? path is).bind Referent.ofService? = some ref) :
    (s.at? path is).bind Referent.ofService? = some { ref with ns } := by
  obtain ⟨x, hx, hservice⟩ := Option.bind_eq_some_iff.1 href
  obtain ⟨o, ho, hobject⟩ := Option.bind_eq_some_iff.1 hservice
  obtain rfl := Value.eq_object ho
  have hne : Value.object o ≠ .null := nofun
  have hrew := rewrites_service h hrule ((FieldRule.admits_ofKind ..).2 hkind)
  obtain ⟨y, hy, hxy⟩ := hrew.exists_at? hpath hne hx
  -- The object has a namespace, which is replaced.
  obtain ⟨old, hold, -⟩ := Option.bind_eq_some_iff.1 hobject
  obtain ⟨v, hv, -⟩ := Option.bind_eq_some_iff.1 hold
  obtain ⟨-, o', -, rfl⟩ := FieldPath.InField.exists_object hxy
  obtain ⟨w, hw | ⟨hne, -⟩, rfl⟩ := (FieldPath.inField_of_some hv).1 hxy
  · obtain ⟨a, b, -, hb, rfl⟩ := hw
    cases hb
    exact Option.bind_eq_some_iff.2 ⟨_, hy, ofObject?_insert hobject⟩
  · exact absurd rfl hne

/-- A subject that is moved stays of its kind. -/
theorem text?_moveSubject_kind (ns : String) (o : Object) :
    Json.Object.text? (moveSubject ns o) "kind" = Json.Object.text? o "kind" := by
  unfold moveSubject
  split
  · rw [Json.Object.text?_insert, if_neg (show "kind" ≠ "namespace" by decide)]
  · rfl

/-- What a binding names as a subject is the same service account in the new namespace. -/
theorem subject_follows (h : move ns r = .ok s) {kind : String} {i : Nat}
    (hrule : .ofKind kind [.items "subjects"] ∈ subjects) (hkind : r.id.gvk.kind = kind)
    {ref : Referent}
    (href : (r.at? [.items "subjects"] [i]).bind Referent.ofSubject? = some ref) :
    (s.at? [.items "subjects"] [i]).bind Referent.ofSubject? = some { ref with ns } := by
  obtain ⟨x, hx, hsubject⟩ := Option.bind_eq_some_iff.1 href
  obtain ⟨o, ho, hobject⟩ := Option.bind_eq_some_iff.1 hsubject
  obtain rfl := Value.eq_object ho
  by_cases haccount : Json.Object.text? o "kind" = some "ServiceAccount"
  · rw [if_pos haccount] at hobject
    have hrew := rewrites_subject h hrule ((FieldRule.admits_ofKind ..).2 hkind)
    have hne : Value.object o ≠ .null := nofun
    have hpath : [Segment.items "subjects"] ≠ [] := nofun
    rw [show (FieldRule.ofKind kind [.items "subjects"]).path = [.items "subjects"] ++ [] from rfl]
      at hrew
    obtain ⟨y, hy, a, b, ha, hb, rfl⟩ := hrew.exists_at? hpath hne hx
    cases ha
    cases hb
    have hmoved : moveSubject ns o = Fields.insert o "namespace" (.string ns) := if_pos haccount
    have haccount' : Json.Object.text? (moveSubject ns o) "kind" = some "ServiceAccount" :=
      (text?_moveSubject_kind ns o).trans haccount
    refine Option.bind_eq_some_iff.2 ⟨_, hy, (if_pos haccount').trans ?_⟩
    rw [hmoved]
    exact ofObject?_insert hobject
  · rw [if_neg haccount] at hobject
    cases hobject

/-- The services and the subjects follow without any change to the metadata. -/
theorem metadata?_of_updates {r₁ r₂ : Resource}
    (h₁ : FieldRule.updateAll (m := Id) serviceNamespaces .text (fun _ => pure ns) r =
      Except.ok r₁)
    (h₂ : FieldRule.updateAll (m := Id) subjects .object (fun s => pure (moveSubject ns s)) r₁ =
      Except.ok r₂) : r₂.metadata? = r.metadata? := by
  unfold Resource.metadata? Json.Object.sub?
  rw [get?_root_of_updates h₁ h₂ (by decide : "metadata" ∉ referenceFields)]

/-- The text by which a resource asks for an authority is one of its annotations. -/
theorem injectionText?_congr
    (h : s.metadataField? "annotations" = r.metadataField? "annotations") :
    s.injectionText? = r.injectionText? := by
  unfold Resource.injectionText?
  rw [Resource.annotations?_congr h]

/-- A resource that does not refer to a certificate is left by the move of one. -/
theorem moveInjection_of_none (h : r.injectionText?.bind InjectionReference.ofText? = none) :
    moveInjection ns r = r := by
  unfold moveInjection
  rw [h]

/-- A resource that asks for the authority of a certificate asks for that of the moved one. -/
theorem injectionText?_moveInjection {ref : InjectionReference}
    (h : r.injectionText?.bind InjectionReference.ofText? = some ref) :
    (moveInjection ns r).injectionText? = some { ref with ns }.text := by
  unfold moveInjection
  rw [h]
  obtain ⟨text, htext, -⟩ := Option.bind_eq_some_iff.1 h
  obtain ⟨o, ho, -⟩ := Option.bind_eq_some_iff.1 htext
  unfold Resource.injectionText?
  rw [Resource.annotations?_modifyAnnotations, ho, Option.map_some, Option.bind_some,
    Json.Object.text?_insert, if_pos rfl]
  rfl

/-- A move changes the annotations last, by moving the certificate that a resource refers to. -/
theorem exists_eq_moveInjection (h : move ns r = .ok s) :
    ∃ t, s = moveInjection ns t ∧
      t.metadataField? "annotations" = r.metadataField? "annotations" := by
  obtain ⟨r₁, r₂, h₁, h₂, rfl⟩ := move_eq_ok h
  refine ⟨r₂, rfl, ?_⟩
  unfold Resource.metadataField?
  rw [metadata?_of_updates h₁ h₂]
  exact (metadataField?_place ns r "annotations").trans (if_neg (by simp))

/-- What a resource names as a certificate is the same certificate in the new namespace, if that has
no slash. -/
theorem injection_follows (h : move ns r = .ok s) (hns : '/' ∉ ns.toList)
    {ref : InjectionReference}
    (href : r.injectionText?.bind InjectionReference.ofText? = some ref) :
    s.injectionText?.bind InjectionReference.ofText? = some { ref with ns } := by
  obtain ⟨t, rfl, same⟩ := exists_eq_moveInjection h
  rw [← injectionText?_congr same] at href
  rw [injectionText?_moveInjection href, Option.bind_some]
  exact InjectionReference.ofText?_eq_some_iff.2 ⟨hns, rfl⟩

/-- What a resource refers to before a move it refers to afterwards, in the new namespace. -/
theorem referent?_move (h : move ns r = .ok s) (hns : '/' ∉ ns.toList) {site : Site}
    {ref : Referent} (href : r.referent? site = some ref) :
    s.referent? site = some { ref with ns } := by
  have hgvk : s.id.gvk = r.id.gvk := (moved_of_move h).gvk
  unfold Resource.referent? at href ⊢
  rw [hgvk]
  by_cases hsite : site.isIn r.id.gvk.kind = true
  · rw [if_pos hsite] at href ⊢
    -- Each place is moved in a way of its own, which its kind of resource decides.
    cases site with
    | webhook i =>
      have hkind : r.id.gvk.kind = "MutatingWebhookConfiguration" ∨
          r.id.gvk.kind = "ValidatingWebhookConfiguration" := by simpa [Site.isIn] using hsite
      rcases hkind with hkind | hkind
      · exact service_follows h webhookService (by decide) mutatingWebhooks_mem hkind href
      · exact service_follows h webhookService (by decide) validatingWebhooks_mem hkind href
    | conversion =>
      have hkind : r.id.gvk.kind = "CustomResourceDefinition" := by simpa [Site.isIn] using hsite
      exact service_follows h conversionService (by decide) conversions_mem hkind href
    | apiService =>
      have hkind : r.id.gvk.kind = "APIService" := by simpa [Site.isIn] using hsite
      exact service_follows h apiServiceService (by decide) apiServices_mem hkind href
    | subject i =>
      have hkind : r.id.gvk.kind = "RoleBinding" ∨ r.id.gvk.kind = "ClusterRoleBinding" := by
        simpa [Site.isIn] using hsite
      rcases hkind with hkind | hkind
      · exact subject_follows h roleBindings_mem hkind href
      · exact subject_follows h clusterRoleBindings_mem hkind href
    | injection =>
      obtain ⟨injection, hinjection, rfl⟩ := Option.map_eq_some_iff.1 href
      exact Option.map_eq_some_iff.2 ⟨_, injection_follows h hns hinjection, rfl⟩
  · rw [if_neg hsite] at href
    cases href

/-- Objects with a name and a namespace name resources of the kind that is given. -/
theorem kind_of_ofObject? {kind : Kind} {o : Object} {ref : Referent}
    (h : Referent.ofObject? kind o = some ref) : ref.kind = kind := by
  obtain ⟨old, -, h⟩ := Option.bind_eq_some_iff.1 h
  obtain ⟨name, -, h⟩ := Option.bind_eq_some_iff.1 h
  cases h
  rfl

/-- A reference names a service, a service account or a certificate. -/
theorem kind_of_referent? {site : Site} {ref : Referent} (h : r.referent? site = some ref) :
    ref.kind ∈ [.service, .serviceAccount, .certificate] := by
  have service {v : Option Value} (hv : v.bind Referent.ofService? = some ref) :
      ref.kind = .service := by
    obtain ⟨x, -, hx⟩ := Option.bind_eq_some_iff.1 hv
    obtain ⟨o, -, ho⟩ := Option.bind_eq_some_iff.1 hx
    exact kind_of_ofObject? ho
  unfold Resource.referent? at h
  split at h
  · cases site with
    | webhook i => simp [service h]
    | conversion => simp [service h]
    | apiService => simp [service h]
    | subject i =>
      obtain ⟨x, -, hx⟩ := Option.bind_eq_some_iff.1 h
      obtain ⟨o, -, ho⟩ := Option.bind_eq_some_iff.1 hx
      split at ho
      · simp [kind_of_ofObject? ho]
      · cases ho
    | injection =>
      obtain ⟨injection, -, rfl⟩ := Option.map_eq_some_iff.1 h
      simp [Referent.ofInjection]
  · cases h

/-- What a reference can name belongs to a namespace. -/
theorem isNamespaced_of_names {site : Site} {ref : Referent} {target : Resource}
    (href : r.referent? site = some ref) (hnames : ref.Names target) :
    isNamespaced target = true := by
  have hkind : target.kind ∈ [.service, .serviceAccount, .certificate] :=
    hnames.1 ▸ kind_of_referent? href
  unfold isNamespaced
  generalize target.kind = kind at hkind
  cases kind <;> first | rfl | simp at hkind

/-- What a reference names before a move is named by it in the new namespace afterwards. -/
theorem names_move {target moved : Resource} {ref : Referent} (h : move ns target = .ok moved)
    (hnamespaced : isNamespaced target = true) (hnames : ref.Names target) :
    { ref with ns }.Names moved := by
  have hmoved := moved_of_move h
  have hkind : moved.kind = target.kind := Resource.kind_congr hmoved.gvk
  have hplace : moved.id.ns = some ns := by rw [hmoved.place, if_pos hnamespaced]
  exact ⟨hkind.trans hnames.1, hplace, hmoved.name.trans hnames.2.2⟩

end Relocation

namespace Manifest

variable {ns : String} {m n : Manifest}

/-- Two resources of the same group, version and kind that a reference names are one. -/
theorem eq_of_links (h : n.IsKeyed) {i j k : Nat} {site : Site} (hj : n.Links i site j)
    (hk : n.Links i site k)
    (hgvk : n.resources[k]?.map (·.id.gvk) = n.resources[j]?.map (·.id.gvk)) : k = j := by
  obtain ⟨r, t, ref, hr, ht, href, -, hns, hname⟩ := hj
  obtain ⟨r', u, ref', hr', hu, href', -, hns', hname'⟩ := hk
  -- The reference is the same, so that the two agree in namespace and name.
  obtain rfl : r' = r := Option.some.inj (hr'.symm.trans hr)
  obtain rfl : ref' = ref := Option.some.inj (href'.symm.trans href)
  rw [hu, ht] at hgvk
  have hid : u.id = t.id := by
    obtain ⟨⟨gvk, name, tns⟩, root⟩ := t
    obtain ⟨⟨gvk', name', uns⟩, root'⟩ := u
    simp_all
  have hlt : k < (n.resources.map (·.id)).length := by
    rw [List.length_map]
    exact (List.getElem?_eq_some_iff.1 hu).1
  refine (List.getElem?_inj hlt h.nodup_ids).1 ?_
  rw [List.getElem?_map, List.getElem?_map, hu, ht, Option.map_some, Option.map_some, hid]

/-- After a move to a namespace without a slash, a reference names what has become of the resource
that it named before, and no other one of the same group, version and kind. -/
theorem links_relocate (h : m.relocate ns = .ok n) (hns : '/' ∉ ns.toList) {i j : Nat} {site : Site}
    (hlinks : m.Links i site j) :
    (∃ target moved, m.resources[j]? = some target ∧ n.resources[j]? = some moved ∧
      Relocation.move ns target = .ok moved) ∧
    n.Links i site j ∧
      ∀ k, n.Links i site k → n.resources[k]?.map (·.id.gvk) = n.resources[j]?.map (·.id.gvk) →
        k = j := by
  obtain ⟨hmove, hkeyed⟩ := relocate_eq_ok h
  obtain ⟨r, target, ref, hr, htarget, href, hnames⟩ := hlinks
  obtain ⟨s, hs, hrs⟩ := exists_getElem?_right hmove hr
  obtain ⟨moved, hmoved, htm⟩ := exists_getElem?_right hmove htarget
  have hlinks : n.Links i site j :=
    ⟨s, moved, { ref with ns }, hs, hmoved, Relocation.referent?_move hrs hns href,
      Relocation.names_move htm (Relocation.isNamespaced_of_names href hnames) hnames⟩
  exact ⟨⟨target, moved, htarget, hmoved, htm⟩, hlinks, fun k hk hgvk =>
    eq_of_links hkeyed hlinks hk hgvk⟩

/-- A service, a certificate, and webhooks that are called through the one and ask for the authority
of the other. -/
def oneWebhook : Manifest :=
  ofDistinct [.serviceIn "a" "webhook", .certificateIn "a" "serving" "secret",
    .ofId ⟨⟨"admissionregistration.k8s.io", "v1", "ValidatingWebhookConfiguration"⟩, "validation",
        none⟩
      [("metadata", .object [("annotations",
          .object (Fields.insert [] Annotation.injectFrom (.string "a/serving")))]),
        ("webhooks", .array [.object [("clientConfig", .object [("service",
          .object [("namespace", .string "a"), ("name", .string "webhook")])])]])]] (by decide)

/-- The webhooks name the same service and the same certificate after a move. -/
theorem links_oneWebhook :
    ∃ n, oneWebhook.relocate "openshift-cluster-api" = .ok n ∧ n.Links 2 (.webhook 0) 0 ∧
      n.Links 2 .injection 1 := by
  obtain ⟨n, hn, -⟩ : ∃ n, oneWebhook.relocate "openshift-cluster-api" = .ok n ∧ n.size = 3 :=
    exists_ok_of_toOption (by decide +kernel)
  have hns : '/' ∉ "openshift-cluster-api".toList := by decide +kernel
  have hservice : oneWebhook.Links 2 (.webhook 0) 0 :=
    ⟨_, _, ⟨.service, "a", "webhook"⟩, rfl, rfl, by decide +kernel, by decide +kernel,
      by decide +kernel, by decide +kernel⟩
  have hcertificate : oneWebhook.Links 2 .injection 1 :=
    ⟨_, _, ⟨.certificate, "a", "serving"⟩, rfl, rfl, by decide +kernel, by decide +kernel,
      by decide +kernel, by decide +kernel⟩
  exact ⟨n, hn, (links_relocate hn hns hservice).2.1, (links_relocate hn hns hcertificate).2.1⟩

end Manifest

end ProviderAssets
