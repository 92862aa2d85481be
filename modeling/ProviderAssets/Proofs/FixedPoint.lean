import ProviderAssets.Proofs.Conservation
import ProviderAssets.Proofs.References
import ProviderAssets.Proofs.ServingCertificate.Settled
import ProviderAssets.Proofs.Shipment

/-!
# Stages that have nothing left to do

The stages change nothing in their own output: what they make of a manifest they leave as it is, down
to the order of fields (`Release.stages_fixed`). Every stage writes values that it would write again,
and no later stage takes them back. `Resource.AtRest` collects what the stages leave behind, all that
follows them keeps it (`AtRest.reannotated`), and where it holds, a move changes at most the
certificate that a resource refers to (`AtRest.move`).

In a component no such reference is left that is not in the namespace already. In a role or account
there may be one among the annotations for the platform; a move changes it then, but the annotations
are replaced by the same ones afterwards (`Resource.annotate_moveInjection`).
-/

namespace ProviderAssets

open Json (Object Value)

/-! ## Annotations for the platform -/

/-- Annotations that replace all others do so after a move of the certificate that is referred to. -/
theorem Resource.annotate_moveInjection (a : Annotations) (ns : String) (r : Resource) :
    (Relocation.moveInjection ns r).annotate a false = r.annotate a false := by
  unfold Relocation.moveInjection
  split
  · exact annotate_modifyAnnotations ..
  · rfl

/-! ## Rules that are met -/

/-- Rules that rewrite nothing in a resource leave it, and succeed. -/
theorem FieldRule.updateAll_eq_self {α : Type} {t : Target α} {f : α → ExceptT Error Id α}
    {r : Resource} : ∀ {rules : List FieldRule},
    (∀ rule ∈ rules, rule.path ≠ [] ∧ (rule.selector.admits r.id.gvk = true →
      FieldPath.Rewrites (FieldPath.Visits t f) rule.path (.object r.root) (.object r.root))) →
      updateAll (m := Id) rules t f r = Except.ok r
  | [], _ => rfl
  | rule :: rules, h => by
    obtain ⟨hpath, hmet⟩ := h rule List.mem_cons_self
    have first : rule.update (m := Id) t f r = Except.ok r := by
      unfold update
      split
      · case isTrue hadm =>
        obtain ⟨seg, rest, heq⟩ := List.exists_cons_of_ne_nil hpath
        have hrew := hmet hadm
        rw [heq] at hrew ⊢
        unfold FieldPath.update
        dsimp only
        rw [FieldPath.updateFrom_eq_ok.2 hrew]
        rfl
      · rfl
    unfold updateAll
    rw [List.foldlM_cons, first]
    exact updateAll_eq_self fun rule hrule => h rule (List.mem_cons_of_mem _ hrule)

/-! ## Resources at rest -/

namespace Resource

/-- In a resource that is placed, every reference but that to a certificate is what a move makes of
it. -/
structure AtRest (ns : String) (p : Provider) (r : Resource) : Prop extends r.IsPlaced ns p where
  /-- Services are in the namespace. -/
  services : ∀ rule ∈ Relocation.serviceNamespaces, rule.selector.admits r.id.gvk = true →
    FieldPath.Rewrites (FieldPath.Visits .text fun _ => pure ns) rule.path (.object r.root)
      (.object r.root)
  /-- Subjects that are service accounts are in the namespace. -/
  subjects : ∀ rule ∈ Relocation.subjects, rule.selector.admits r.id.gvk = true →
    FieldPath.Rewrites (FieldPath.Visits .object fun o => pure (Relocation.moveSubject ns o))
      rule.path (.object r.root) (.object r.root)

end Resource

namespace Relocation

variable {ns : String} {p : Provider} {r s : Resource}

/-- A text that was moved is moved to itself. -/
theorem visits_text_again {v w : Value} (h : FieldPath.Visits .text (fun _ => pure ns) v w) :
    FieldPath.Visits .text (fun _ => pure ns) w w := by
  obtain ⟨a, b, -, hb, rfl⟩ := h
  cases hb
  exact ⟨ns, ns, rfl, rfl, rfl⟩

/-- Of two moves of a subject the second one counts. -/
theorem moveSubject_moveSubject (first ns : String) (o : Object) :
    moveSubject ns (moveSubject first o) = moveSubject ns o := by
  by_cases haccount : Json.Object.text? o "kind" = some "ServiceAccount"
  · have hfirst (ns : String) : moveSubject ns o = Fields.insert o "namespace" (.string ns) :=
      if_pos haccount
    have hsecond : moveSubject ns (moveSubject first o) =
        Fields.insert (moveSubject first o) "namespace" (.string ns) :=
      if_pos ((text?_moveSubject_kind first o).trans haccount)
    rw [hsecond, hfirst, hfirst, Fields.insert_insert]
  · have hfirst (ns : String) : moveSubject ns o = o := if_neg haccount
    rw [hfirst, hfirst]

/-- The same of a visit. -/
theorem visits_object_again {v w : Value}
    (h : FieldPath.Visits .object (fun o => pure (moveSubject ns o)) v w) :
    FieldPath.Visits .object (fun o => pure (moveSubject ns o)) w w := by
  obtain ⟨o, b, -, hb, rfl⟩ := h
  cases hb
  exact ⟨_, _, rfl, rfl, congrArg Value.object (moveSubject_moveSubject ns ns o).symm⟩

/-- What rules rewrite is not in the metadata. -/
theorem rewrites_self_congr {R : Value → Value → Prop} {rule : FieldRule}
    (hrule : rule ∈ serviceNamespaces ++ subjects)
    (h : FieldPath.Rewrites R rule.path (.object r.root) (.object r.root))
    (same : ∀ key, key ≠ "metadata" → Fields.get? s.root key = Fields.get? r.root key) :
    FieldPath.Rewrites R rule.path (.object s.root) (.object s.root) := by
  obtain ⟨seg, rest, hpath, hne⟩ := exists_path_eq_cons hrule
  rw [hpath] at h ⊢
  exact h.self_congr (same _ hne)

/-- A resource that was moved and labelled is at rest. -/
theorem atRest_label (h : move ns r = .ok s) : (s.label p).AtRest ns p := by
  have hmoved := moved_of_move h
  have same (key : String) (hkey : key ≠ "metadata") :
      Fields.get? (s.label p).root key = Fields.get? s.root key :=
    Resource.get?_root_updateMetadata s _ hkey
  have hgvk : (s.label p).id.gvk = r.id.gvk := hmoved.gvk
  refine ⟨Resource.isPlaced_label hmoved, fun rule hrule hadm => ?_, fun rule hrule hadm => ?_⟩
  · have hrew := (rewrites_service h hrule (hgvk ▸ hadm)).settled fun _ _ => visits_text_again
    exact rewrites_self_congr (List.mem_append_left _ hrule) hrew same
  · have hrew := (rewrites_subject h hrule (hgvk ▸ hadm)).settled fun _ _ => visits_object_again
    exact rewrites_self_congr (List.mem_append_right _ hrule) hrew same

end Relocation

namespace Resource

open Relocation (moveInjection)

variable {ns : String} {p : Provider} {bound : Bindings} {r s : Resource}

/-- Other annotations leave a resource at rest. -/
theorem AtRest.reannotated (h : r.AtRest ns p) (hrs : r.Reannotated s) : s.AtRest ns p := by
  have hgvk : s.id.gvk = r.id.gvk := by rw [hrs.id]
  refine ⟨h.toIsPlaced.reannotated hrs, fun rule hrule hadm => ?_, fun rule hrule hadm => ?_⟩
  · rw [hgvk] at hadm
    exact Relocation.rewrites_self_congr (List.mem_append_left _ hrule)
      (h.services rule hrule hadm) hrs.root
  · rw [hgvk] at hadm
    exact Relocation.rewrites_self_congr (List.mem_append_right _ hrule)
      (h.subjects rule hrule hadm) hrs.root

/-- A resource with labels has metadata. -/
theorem IsPlaced.exists_metadata (h : r.IsPlaced ns p) : ∃ o, r.metadata? = some o := by
  obtain ⟨l, hl, -⟩ := Option.bind_eq_some_iff.1 h.installed
  obtain ⟨o, ho, -⟩ := Option.bind_eq_some_iff.1 hl
  exact ⟨o, ho⟩

/-- A resource that is placed is in its place. -/
theorem IsPlaced.place_eq_self (h : r.IsPlaced ns p) : Relocation.place ns r = r := by
  obtain ⟨o, ho⟩ := h.exists_metadata
  unfold Relocation.place
  split
  · case isTrue hnamespaced =>
    obtain ⟨hns, hfield⟩ := h.place hnamespaced
    unfold metadataField? at hfield
    rw [ho, Option.bind_some] at hfield
    have hmetadata : r.updateMetadata (withNamespace (some ns)) = r :=
      updateMetadata_eq_self ho (Fields.insert_eq_self hfield)
    unfold setNamespace
    dsimp only
    rw [hmetadata, ← hns]
  · rfl

/-- A resource that is placed has the labels of the provider. -/
theorem IsPlaced.label_eq_self (h : r.IsPlaced ns p) : r.label p = r := by
  obtain ⟨l, hl, hinstalled⟩ := Option.bind_eq_some_iff.1 h.installed
  obtain ⟨l', hl', hprovider⟩ := Option.bind_eq_some_iff.1 h.provider
  obtain rfl : l' = l := Option.some.inj (hl'.symm.trans hl)
  refine updateLabels_eq_self hl ?_
  rw [Fields.insert_eq_self hprovider, Fields.insert_eq_self hinstalled]

/-- A move of a resource that is at rest moves the certificate that it refers to, and succeeds. -/
theorem AtRest.move (h : r.AtRest ns p) : Relocation.move ns r = .ok (moveInjection ns r) := by
  have hservices : FieldRule.updateAll (m := Id) Relocation.serviceNamespaces .text
      (fun _ => pure ns) r = Except.ok r :=
    FieldRule.updateAll_eq_self fun rule hrule =>
      ⟨Relocation.path_ne_nil rule (List.mem_append_left _ hrule), h.services rule hrule⟩
  have hsubjects : FieldRule.updateAll (m := Id) Relocation.subjects .object
      (fun s => pure (Relocation.moveSubject ns s)) r = Except.ok r :=
    FieldRule.updateAll_eq_self fun rule hrule =>
      ⟨Relocation.path_ne_nil rule (List.mem_append_right _ hrule), h.subjects rule hrule⟩
  -- All parts of the move but the last one give the resource back.
  have hplace := h.toIsPlaced.place_eq_self
  unfold Relocation.place at hplace
  unfold Relocation.move
  dsimp only
  rw [hplace]
  exact bind_eq_ok.2 ⟨r, hservices, bind_eq_ok.2 ⟨r, hsubjects, rfl⟩⟩

/-- Where a resource refers to a certificate, it is to one in the namespace. -/
def RefersTo (ns : String) (r : Resource) : Prop :=
  ∀ ref, r.injectionText?.bind InjectionReference.ofText? = some ref → ref.ns = ns

/-- A reference to a certificate that was moved is to one in the namespace, if that has no slash. -/
theorem refersTo_moveInjection (hns : '/' ∉ ns.toList) (r : Resource) :
    (moveInjection ns r).RefersTo ns := by
  intro ref href
  cases h : r.injectionText?.bind InjectionReference.ofText? with
  | none =>
    -- Nothing was moved, so that there is no reference.
    rw [Relocation.moveInjection_of_none h, h] at href
    cases href
  | some old =>
    have hread : InjectionReference.ofText? { old with ns }.text = some { old with ns } :=
      InjectionReference.ofText?_eq_some_iff.2 ⟨hns, rfl⟩
    rw [Relocation.injectionText?_moveInjection h, Option.bind_some, hread] at href
    cases href
    rfl

/-- A reference to a certificate in the namespace is moved to itself. -/
theorem RefersTo.moveInjection_eq_self (h : r.RefersTo ns) : moveInjection ns r = r := by
  unfold moveInjection
  split
  · case h_1 ref href =>
    obtain ⟨text, htext, hread⟩ := Option.bind_eq_some_iff.1 href
    obtain ⟨a, ha, hvalue⟩ := Option.bind_eq_some_iff.1 htext
    obtain ⟨m, hm, -⟩ := Option.bind_eq_some_iff.1 ha
    have hmoved : { ref with ns }.text = text := by
      rw [(InjectionReference.ofText?_eq_some_iff.1 hread).2, ← h ref href]
    refine modifyAnnotations_eq_self hm fun a' ha' => ?_
    obtain rfl : a' = a := Option.some.inj (ha'.symm.trans ha)
    rw [hmoved]
    exact Fields.insert_eq_self (Json.Object.get?_of_text? hvalue)
  · rfl

/-- What the platform makes of a resource refers to no certificate that it did not refer to before. -/
theorem RefersTo.forPlatform (h : r.RefersTo ns) (hs : r.forPlatform bound = some s) :
    s.RefersTo ns := by
  obtain rfl | rfl | ⟨-, secret, rfl⟩ := forPlatform_cases hs
  · exact h
  · intro ref href
    rw [injectionText?_eq, annotation?_modifyAnnotations_requestBundle] at href
    cases href
  · -- The secret of a service is put under another key than the reference.
    intro ref href
    refine h ref ?_
    rw [← href, injectionText?_eq, injectionText?_eq]
    unfold annotation?
    rw [annotations?_updateAnnotations, Option.bind_some, Fields.get?_insert,
      if_neg (by decide)]
    cases r.annotations? <;> rfl

/-! ## Resources that are settled -/

/-- A resource at rest for which the platform has nothing to do. -/
structure IsSettled (ns : String) (p : Provider) (r : Resource) : Prop extends r.AtRest ns p where
  /-- The platform needs the resource. -/
  needed : r.kind.isNeedless = false
  /-- The resource does not ask for the authority of a certificate. -/
  request : r.kind.acceptsInjection = true → r.annotation? Annotation.injectFrom = none

/-- Roles and accounts at rest are settled. -/
theorem AtRest.isSettled_of_isRbac (h : r.AtRest ns p) (hk : r.kind.isRbac = true) :
    r.IsSettled ns p := by
  refine ⟨h, Kind.isNeedless_of_isRbac hk, fun haccepts => ?_⟩
  rw [Kind.acceptsInjection_of_isRbac hk] at haccepts
  cases haccepts

/-- A move of the certificate that is referred to leaves a resource settled. -/
theorem IsSettled.moveInjection (h : r.IsSettled ns p) : (moveInjection ns r).IsSettled ns p := by
  have re := Relocation.reannotated_moveInjection ns r
  have hkind : (Relocation.moveInjection ns r).kind = r.kind := kind_congr (by rw [re.id])
  refine ⟨h.toAtRest.reannotated re, hkind ▸ h.needed, fun haccepts => ?_⟩
  have hnone : r.annotation? Annotation.injectFrom = none := h.request (hkind ▸ haccepts)
  have htext : r.injectionText? = none := by
    rw [injectionText?_eq, hnone]
    rfl
  rw [Relocation.moveInjection_of_none (by rw [htext]; rfl), hnone]

/-- A resource that is settled is served. -/
theorem IsSettled.isServed (h : r.IsSettled ns p) : r.IsServed :=
  ⟨h.needed, fun _ => h.exists_metadata, h.request⟩

end Resource

/-! ## Stages -/

namespace Release

open Relocation (moveInjection)

variable {config : Config} {exclude : Option Exclusion} {p : Provider} {bound : Bindings}
  {m core rbac prepared : Manifest} {r t : Resource}

/-- Of resources that are settled, preparation moves the certificates that they refer to, and it
succeeds. -/
theorem prepare_of_isSettled (hkeyed : m.IsKeyed)
    (h : ∀ r ∈ m.resources, r.IsSettled config.targetNamespace p) :
    prepare config p m = .ok (m.map (moveInjection config.targetNamespace)) := by
  have hid (r : Resource) : (moveInjection config.targetNamespace r).id = r.id :=
    (Relocation.reannotated_moveInjection _ r).id
  have hrelocate : m.relocate config.targetNamespace =
      .ok (m.map (moveInjection config.targetNamespace)) := by
    refine hkeyed.collect_eq_map (fun r hr => ?_) hid
    rw [(h r hr).move]
    rfl
  -- The moved resources are settled as well, so that nothing is left to do.
  generalize hmoved : m.map (moveInjection config.targetNamespace) = moved at hrelocate ⊢
  have hkeyed' : moved.IsKeyed := hmoved ▸ hkeyed.map hid
  have settled : ∀ s ∈ moved.resources, s.IsSettled config.targetNamespace p := by
    intro s hs
    rw [← hmoved, Manifest.resources_map] at hs
    obtain ⟨r, hr, rfl⟩ := List.mem_map.1 hs
    exact (h r hr).moveInjection
  have hlabel : moved.label p = moved :=
    Manifest.map_eq_self fun s hs => (settled s hs).label_eq_self
  have hplatform : moved.forPlatform [] = .ok moved :=
    hkeyed'.forPlatform_eq_self fun s hs => (settled s hs).isServed.forPlatform_nil
  unfold prepare
  rw [hrelocate]
  show (moved.label p).withPlatformCertificates = _
  rw [hlabel]
  unfold Manifest.withPlatformCertificates
  rw [Manifest.bindings_eq_nil fun s hs => (settled s hs).isServed]
  exact hplatform

/-- A prepared resource is settled. -/
theorem Prepares.isSettled (h : Prepares config p bound r t) (hneeded : r.kind.isNeedless = false) :
    t.IsSettled config.targetNamespace p := by
  have certified := h.ready.2
  have hkind : t.kind = r.kind := h.kind
  obtain ⟨s, hs, ht⟩ := h
  exact ⟨(Relocation.atRest_label hs).reannotated (Resource.reannotated_forPlatform ht),
    hkind ▸ hneeded, certified.request⟩

/-- A prepared resource refers to no certificate outside the namespace, if that has no slash. -/
theorem Prepares.refersTo (h : Prepares config p bound r t)
    (hns : '/' ∉ config.targetNamespace.toList) : t.RefersTo config.targetNamespace := by
  obtain ⟨s, hs, ht⟩ := h
  obtain ⟨u, rfl, -⟩ := Relocation.exists_eq_moveInjection hs
  have moved := Resource.refersTo_moveInjection hns u
  have same : ((moveInjection config.targetNamespace u).label p).injectionText? =
      (moveInjection config.targetNamespace u).injectionText? :=
    Relocation.injectionText?_congr (Resource.metadataField?_updateLabels _ _ (by decide))
  have labelled : ((moveInjection config.targetNamespace u).label p).RefersTo
      config.targetNamespace := fun ref href => moved ref (same ▸ href)
  exact labelled.forPlatform ht

/-- The division of a manifest without roles and accounts, from which nothing is excluded, gives it and
nothing else. -/
theorem divide_of_keeps (hkeyed : m.IsKeyed) (h : ∀ r ∈ m.resources, keeps exclude r = true) :
    divide config exclude m = (m, .empty) := by
  obtain ⟨hcore, hrbac⟩ := isKeyed_divide config exclude hkeyed
  refine Prod.ext (hcore.eq_of_resources_eq hkeyed ?_)
    (hrbac.eq_of_resources_eq Manifest.isKeyed_empty ?_)
  · rw [resources_divide_components, List.filter_eq_self.2 h]
  · have hnone : m.resources.filter (·.kind.isRbac) = [] := by
      refine List.filter_eq_nil_iff.2 fun r hr hisRbac => ?_
      have hkeeps := h r hr
      unfold keeps at hkeeps
      rw [hisRbac] at hkeeps
      cases hkeeps
    rw [resources_divide_rbac, hnone]
    rfl

/-- The division of roles and accounts that lack nothing but the annotations for the platform gives
these and nothing else. -/
theorem divide_of_isRbac (hkeyed : m.IsKeyed) (hkeyed' : rbac.IsKeyed)
    (h : ∀ r ∈ m.resources, r.kind.isRbac = true)
    (hannotate : m.resources.map (·.annotate config.annotations false) = rbac.resources) :
    divide config exclude m = (.empty, rbac) := by
  obtain ⟨hcore, hrbac⟩ := isKeyed_divide config exclude hkeyed
  refine Prod.ext (hcore.eq_of_resources_eq Manifest.isKeyed_empty ?_)
    (hrbac.eq_of_resources_eq hkeyed' ?_)
  · rw [resources_divide_components]
    refine List.filter_eq_nil_iff.2 fun r hr hkeeps => ?_
    unfold keeps at hkeeps
    rw [h r hr] at hkeeps
    cases hkeeps
  · rw [resources_divide_rbac, List.filter_eq_self.2 h, hannotate]

/-- The stages change nothing in components that are settled and refer to no certificate outside the
namespace. -/
theorem stages_of_components (hkeyed : m.IsKeyed)
    (settled : ∀ r ∈ m.resources, r.IsSettled config.targetNamespace p)
    (refers : ∀ r ∈ m.resources, r.RefersTo config.targetNamespace)
    (kept : ∀ r ∈ m.resources, keeps exclude r = true) :
    stages config exclude p m = .ok (m, .empty) := by
  have hprepare : prepare config p m = .ok m := by
    have same : m.map (moveInjection config.targetNamespace) = m :=
      Manifest.map_eq_self fun r hr => (refers r hr).moveInjection_eq_self
    rw [prepare_of_isSettled hkeyed settled, same]
  unfold stages
  rw [hprepare]
  exact congrArg Except.ok (divide_of_keeps hkeyed kept)

/-- The stages change nothing in roles and accounts at rest that have the annotations for the platform
and no others. -/
theorem stages_of_accounts (hkeyed : m.IsKeyed)
    (rest : ∀ r ∈ m.resources, r.AtRest config.targetNamespace p)
    (accounts : ∀ r ∈ m.resources, r.kind.isRbac = true)
    (annotated : ∀ r ∈ m.resources, r.annotate config.annotations false = r) :
    stages config exclude p m = .ok (.empty, m) := by
  have hprepare := prepare_of_isSettled hkeyed fun r hr =>
    (rest r hr).isSettled_of_isRbac (accounts r hr)
  have hid (r : Resource) : (moveInjection config.targetNamespace r).id = r.id :=
    (Relocation.reannotated_moveInjection _ r).id
  have hresources := Manifest.resources_map (moveInjection config.targetNamespace) m
  unfold stages
  rw [hprepare]
  refine congrArg Except.ok (divide_of_isRbac (hkeyed.map hid) hkeyed ?_ ?_)
  · intro s hs
    rw [hresources] at hs
    obtain ⟨r, hr, rfl⟩ := List.mem_map.1 hs
    have hkind : (moveInjection config.targetNamespace r).kind = r.kind :=
      Resource.kind_congr (by rw [hid])
    rw [hkind]
    exact accounts r hr
  · rw [hresources, List.map_map]
    refine (List.map_congr_left fun r hr => ?_).trans (List.map_id _)
    exact (Resource.annotate_moveInjection ..).trans (annotated r hr)

/-- If the stages succeed, they change nothing in the components and in the roles and accounts that
they give, and take none for the other, provided that there is no slash in the namespace. -/
theorem stages_fixed (h : stages config exclude p m = .ok (core, rbac))
    (hns : '/' ∉ config.targetNamespace.toList) :
    stages config exclude p core = .ok (core, .empty) ∧
      stages config exclude p rbac = .ok (.empty, rbac) := by
  unfold stages at h
  obtain ⟨prepared, hprepared, hdivide⟩ := bind_eq_ok.1 h
  obtain ⟨rfl, rfl⟩ := Prod.mk.inj (Except.ok.inj hdivide)
  obtain ⟨moved, bound, -, -, hmade, hkeyed⟩ := prepare_eq_ok hprepared
  obtain ⟨hcoreKeyed, hrbacKeyed⟩ := isKeyed_divide config exclude hkeyed
  have hcore := resources_divide_components config exclude prepared
  have hrbac := resources_divide_rbac config exclude prepared
  -- Both manifests are selected from the prepared resources, for all of which this is known.
  have facts : ∀ t ∈ prepared.resources, t.IsSettled config.targetNamespace p ∧
      t.RefersTo config.targetNamespace := by
    intro t ht
    obtain ⟨r, hr, hrt⟩ := exists_of_mem_right hmade ht
    have hneeded : r.kind.isNeedless = false := by simpa using (List.mem_filter.1 hr).2
    exact ⟨hrt.isSettled hneeded, hrt.refersTo hns⟩
  constructor
  · have components : ∀ r ∈ (divide config exclude prepared).1.resources,
        r ∈ prepared.resources ∧ keeps exclude r = true := fun r hr =>
      List.mem_filter.1 (hcore ▸ hr)
    exact stages_of_components hcoreKeyed (fun r hr => (facts r (components r hr).1).1)
      (fun r hr => (facts r (components r hr).1).2) fun r hr => (components r hr).2
  · -- The new annotations may refer to a certificate anywhere, so that nothing is said about that.
    have accounts : ∀ t ∈ (divide config exclude prepared).2.resources,
        ∃ s ∈ prepared.resources, s.kind.isRbac = true ∧
          s.annotate config.annotations false = t := by
      intro t ht
      obtain ⟨s, hs, hst⟩ := List.mem_map.1 (hrbac ▸ ht)
      obtain ⟨hs, hisRbac⟩ := List.mem_filter.1 hs
      exact ⟨s, hs, hisRbac, hst⟩
    refine stages_of_accounts hrbacKeyed ?_ ?_ ?_
    · intro t ht
      obtain ⟨s, hs, -, rfl⟩ := accounts t ht
      exact (facts s hs).1.toAtRest.reannotated (.updateAnnotations s _)
    · intro t ht
      obtain ⟨s, -, hisRbac, rfl⟩ := accounts t ht
      exact hisRbac
    · intro t ht
      obtain ⟨s, -, -, rfl⟩ := accounts t ht
      exact Resource.annotate_annotate ..

/-- A definition that asks for the authority of a certificate, the certificate, the service that it is
for, an account, and a binding of a role to it. -/
def oneBinding : Manifest :=
  .ofDistinct [.certificateIn "a" "serving" "secret",
    .definitionFor "widgets.example.com" (.string "a/serving") "webhook",
    .serviceIn "a" "webhook", .ofId ⟨⟨"", "v1", "ServiceAccount"⟩, "manager", some "a"⟩ [],
    .ofId ⟨⟨"rbac.authorization.k8s.io", "v1", "RoleBinding"⟩, "manager", some "a"⟩
      [("subjects", .array [.object [("kind", .string "ServiceAccount"),
        ("name", .string "manager"), ("namespace", .string "a")]])]] (by decide)

/-- The stages change nothing in the definition and the service that they give, and nothing in the
account and the binding. -/
theorem stages_oneBinding :
    ∃ core rbac, stages .standard none sampleProvider oneBinding = .ok (core, rbac) ∧
      core.size = 2 ∧ rbac.size = 2 ∧
      stages .standard none sampleProvider core = .ok (core, .empty) ∧
      stages .standard none sampleProvider rbac = .ok (.empty, rbac) := by
  obtain ⟨⟨core, rbac⟩, hstages, hsizes⟩ := exists_ok_of_toOption (b := (2, 2))
    (x := stages .standard none sampleProvider oneBinding)
    (f := fun s => (s.1.size, s.2.size)) (by decide +kernel)
  obtain ⟨hcore, hrbac⟩ := Prod.mk.inj hsizes
  obtain ⟨hcoreFixed, hrbacFixed⟩ := stages_fixed hstages (by decide +kernel)
  exact ⟨core, rbac, hstages, hcore, hrbac, hcoreFixed, hrbacFixed⟩

end Release

end ProviderAssets
