import ProviderAssets.Proofs.Atomicity
import ProviderAssets.Proofs.Changes
import ProviderAssets.Proofs.Repetition

/-!
# The platform has nothing left to do

What the platform makes of resources it leaves as it is when it is asked again, by the same bindings or
by those that are found anew, down to the order of fields. `Resource.IsServed` is what the platform
leaves behind of a resource; where it holds of all resources, there is nothing to bind
(`Manifest.bindings_eq_nil`).

The main statement is `Manifest.forPlatform_settles`. It is about any manifest, also one whose keys are
no longer the identities of its resources: the new one is made from the identities, and fails exactly
if one of these repeats.
-/

namespace ProviderAssets

open Json (Object)

namespace Resource

variable {r s : Resource} {bound : Bindings}

/-! ## Resources that are served -/

/-- The platform needs the resource, which does not ask for the authority of a certificate. -/
structure IsServed (r : Resource) : Prop where
  /-- The platform needs the resource. -/
  needed : r.kind.isNeedless = false
  /-- Where there can be a request for an authority, there are metadata. -/
  metadata : r.kind.acceptsInjection = true → ∃ o, r.metadata? = some o
  /-- The resource does not ask for the authority of a certificate. -/
  request : r.kind.acceptsInjection = true → r.annotation? Annotation.injectFrom = none

/-- What the platform makes of a resource is of the same kind. -/
theorem kind_forPlatform (h : r.forPlatform bound = some s) : s.kind = r.kind :=
  kind_congr (by rw [(reannotated_forPlatform h).id])

/-- What the platform makes of a resource is served. -/
theorem isServed_forPlatform (h : r.forPlatform bound = some s) : s.IsServed := by
  have hkind := kind_forPlatform h
  -- A resource that can ask for an authority was changed, whether or not it did ask.
  have changed (haccepts : s.kind.acceptsInjection = true) : s = r.modifyAnnotations requestBundle := by
    have hr := forPlatform_of_acceptsInjection (hkind ▸ haccepts) bound
    exact Option.some.inj (h.symm.trans hr)
  refine ⟨?_, fun haccepts => ?_, fun haccepts => ?_⟩
  · have hne : ¬ r.kind.isNeedless = true := by
      rw [← forPlatform_eq_none_iff r bound, h]
      nofun
    rw [hkind]
    exact Bool.eq_false_iff.2 hne
  · rw [changed haccepts]
    exact ⟨_, metadata?_updateMetadata ..⟩
  · rw [changed haccepts]
    exact annotation?_modifyAnnotations_requestBundle r

/-- A resource without a request has none to change. -/
theorem IsServed.modifyAnnotations_requestBundle (h : r.IsServed)
    (haccepts : r.kind.acceptsInjection = true) : r.modifyAnnotations requestBundle = r := by
  obtain ⟨o, ho⟩ := h.metadata haccepts
  refine modifyAnnotations_eq_self ho fun a ha => ?_
  have hnone : Fields.get? a Annotation.injectFrom = none := by
    have hrequest := h.request haccepts
    rwa [annotation?, ha, Option.bind_some] at hrequest
  unfold requestBundle Json.Object.text?
  rw [hnone]
  exact Fields.erase_eq_self hnone

/-- Only services that are served may be changed again. -/
theorem IsServed.forPlatform_of_ne (h : r.IsServed) (hk : r.kind ≠ .service) (bound : Bindings) :
    r.forPlatform bound = some r := by
  by_cases haccepts : r.kind.acceptsInjection = true
  · rw [forPlatform_of_acceptsInjection haccepts, h.modifyAnnotations_requestBundle haccepts]
  · have hneeded := h.needed
    unfold forPlatform
    cases hkind : r.kind with
    | service => exact absurd hkind hk
    | certificate | issuer | namespaceKind => simp [hkind, Kind.isNeedless] at hneeded
    | customResourceDefinition | mutatingWebhookConfiguration | validatingWebhookConfiguration =>
      simp [hkind, Kind.acceptsInjection] at haccepts
    | _ => rfl

/-- A service that is not bound is left as it is. -/
theorem forPlatform_of_unbound (hk : r.kind = .service) (hb : Fields.get? bound r.name = none) :
    r.forPlatform bound = some r := by
  unfold forPlatform
  rw [hk]
  simp only [hb]

/-- A service that names the secret to which it is bound is left as it is. -/
theorem forPlatform_of_annotated {secret : String} (hk : r.kind = .service)
    (hb : Fields.get? bound r.name = some secret)
    (h : r.annotation? Annotation.servingSecret = some (.string secret)) :
    r.forPlatform bound = some r := by
  obtain ⟨a, ha, hget⟩ := Option.bind_eq_some_iff.1 h
  unfold forPlatform
  rw [hk]
  simp only [hb]
  exact congrArg some (updateAnnotations_eq_self ha (Fields.insert_eq_self hget))

/-- Without bindings the platform leaves a resource that is served. -/
theorem IsServed.forPlatform_nil (h : r.IsServed) : r.forPlatform [] = some r := by
  by_cases hk : r.kind = .service
  · exact forPlatform_of_unbound hk rfl
  · exact h.forPlatform_of_ne hk []

/-- What the platform makes of a resource it leaves by the same bindings. -/
theorem forPlatform_forPlatform (h : r.forPlatform bound = some s) : s.forPlatform bound = some s := by
  by_cases hk : s.kind = .service
  · have hname : s.name = r.name := congrArg ResourceId.name (reannotated_forPlatform h).id
    cases hb : Fields.get? bound s.name with
    | none => exact forPlatform_of_unbound hk hb
    | some secret =>
      have hannotated := annotation?_of_bound h (kind_forPlatform h ▸ hk) (hname ▸ hb)
      exact forPlatform_of_annotated hk hb hannotated
  · exact (isServed_forPlatform h).forPlatform_of_ne hk bound

end Resource

namespace Manifest

open Resource

variable {m n : Manifest} {bound : Bindings}

/-! ## Manifests that are served -/

/-- Resources that are served bind no services. -/
theorem bindings_eq_nil (h : ∀ r ∈ m.resources, r.IsServed) : m.bindings = .ok [] := by
  have hsecrets : secretsOf m.resources = .ok [] := by
    refine foldlM_eq_self fun r hr => ?_
    have hne : r.kind ≠ .certificate := by
      intro hk
      have hneeded := (h r hr).needed
      rw [hk] at hneeded
      cases hneeded
    rw [if_neg hne]
    rfl
  have hbinding : ∀ r ∈ m.resources, bindingOf [] r = .ok none := by
    intro r hr
    unfold bindingOf
    split
    · case isTrue haccepts =>
      rw [injectionText?_eq, (h r hr).request haccepts]
      rfl
    · rfl
  unfold bindings
  rw [hsecrets]
  refine foldlM_eq_self fun r hr => ?_
  rw [hbinding r hr]
  rfl

/-- A manifest whose resources the platform leaves as they are stays as it is. -/
theorem IsKeyed.forPlatform_eq_self (hkeyed : m.IsKeyed)
    (h : ∀ r ∈ m.resources, r.forPlatform bound = some r) : m.forPlatform bound = .ok m := by
  have hcollect : m.forPlatform bound = .ok (m.map id) := by
    refine hkeyed.collect_eq_map (fun r hr => ?_) fun _ => rfl
    rw [h r hr]
    rfl
  exact hcollect.trans (congrArg Except.ok (map_eq_self fun _ _ => rfl))

/-! ## Any manifest -/

/-- The new manifest is made of what becomes of the resources. -/
theorem forPlatform_eq_ofResources (m : Manifest) (bound : Bindings) :
    m.forPlatform bound = ofResources (m.resources.filterMap (Resource.forPlatform bound)) := by
  unfold forPlatform ofResources
  rw [← collect_filterMap]
  congr 1
  funext r
  cases r.forPlatform bound <;> rfl

/-- Something becomes of exactly the resources that are not needless, and only their annotations are
changed. -/
theorem forall₂_forPlatform (rs : List Resource) (bound : Bindings) :
    List.Forall₂ (fun r s => r.forPlatform bound = some s ∧ r.Reannotated s)
      (rs.filter (!·.kind.isNeedless)) (rs.filterMap (Resource.forPlatform bound)) := by
  have same : List.Forall₂ Eq rs rs := List.forall₂_same.2 fun _ _ => rfl
  refine forall₂_filter_filterMap ?_ ?_ same
  · rintro r _ rfl hneeded
    have hne : r.forPlatform bound ≠ none := by
      rw [Ne, forPlatform_eq_none_iff]
      simpa using hneeded
    obtain ⟨s, hs⟩ := Option.ne_none_iff_exists'.1 hne
    exact ⟨s, hs, hs, reannotated_forPlatform hs⟩
  · rintro r _ rfl hneedless
    exact (forPlatform_eq_none_iff r bound).2 (by simpa using hneedless)

/-- They keep their identities. -/
theorem map_id_filterMap_forPlatform (rs : List Resource) (bound : Bindings) :
    (rs.filterMap (Resource.forPlatform bound)).map (·.id) =
      (rs.filter (!·.kind.isNeedless)).map (·.id) := by
  have hids := (forall₂_forPlatform rs bound).imp fun r s h => h.2.id
  have hmap := List.forall₂_map_left_iff.2 (List.forall₂_map_right_iff.2 (hids.imp fun _ _ => Eq.symm))
  exact (List.forall₂_eq_eq_eq ▸ hmap).symm

/-- By any bindings, and under whatever keys, a manifest is given the certificates of the platform exactly
if the resources that are not needless have distinct identities; otherwise the error names the first
identity that repeats. The new manifest holds these resources in order, with other annotations at most,
under their identities; and it stays as it is when it is given the certificates again, by the same
bindings or, in any session, by its own. -/
theorem forPlatform_settles (m : Manifest) (bound : Bindings) :
    ((∃ n, m.forPlatform bound = .ok n) ↔
      ((m.resources.filter (!·.kind.isNeedless)).map (·.id)).Nodup) ∧
    (∀ e, m.forPlatform bound = .error e ↔
      ∃ id, IsFirstRepeat ((m.resources.filter (!·.kind.isNeedless)).map (·.id)) id ∧
        e = .conflict id) ∧
    ∀ n, m.forPlatform bound = .ok n →
      List.Forall₂ (fun r s => r.forPlatform bound = some s ∧ r.Reannotated s)
        (m.resources.filter (!·.kind.isNeedless)) n.resources ∧
      n.IsKeyed ∧ n.forPlatform bound = .ok n ∧
      ∀ s : Session, s.manifest = n →
        s.usePlatformCertificates = (.ok (), { s with platformBindings := [] }) := by
  rw [forPlatform_eq_ofResources, ← map_id_filterMap_forPlatform m.resources bound]
  refine ⟨exists_ofResources_iff, fun e => ofResources_eq_error_iff, fun n hn => ?_⟩
  obtain ⟨hresources, hkeyed⟩ := ofResources_eq_ok_iff.1 hn
  -- Everything in the new manifest was made by the platform, which leaves it as it is.
  have source : ∀ s ∈ n.resources, ∃ r : Resource, r.forPlatform bound = some s := by
    intro s hs
    rw [hresources] at hs
    obtain ⟨r, -, hr⟩ := List.mem_filterMap.1 hs
    exact ⟨r, hr⟩
  have served : ∀ s ∈ n.resources, s.IsServed := by
    intro s hs
    obtain ⟨r, hr⟩ := source s hs
    exact isServed_forPlatform hr
  refine ⟨hresources ▸ forall₂_forPlatform m.resources bound, hkeyed, ?_, ?_⟩
  · refine hkeyed.forPlatform_eq_self fun s hs => ?_
    obtain ⟨r, hr⟩ := source s hs
    exact forPlatform_forPlatform hr
  · rintro s rfl
    have hbound : s.manifest.bindings = .ok [] := bindings_eq_nil served
    have hagain : s.manifest.forPlatform [] = .ok s.manifest :=
      hkeyed.forPlatform_eq_self fun r hr => (served r hr).forPlatform_nil
    unfold Session.usePlatformCertificates
    rw [hbound]
    dsimp only
    rw [hagain]
    rfl

/-- An account and a service that were taken to another namespace in place are under their old identities;
and there are a definition that asks for an authority, and the namespace. -/
def staleKeys : Manifest where
  entries := [((accountIn "a" "manager").id, accountIn "b" "manager"),
    ((serviceIn "a" "webhook").id, serviceIn "b" "webhook"),
    ((definitionFor "widgets.example.com" (.string "b/serving") "webhook").id,
      definitionFor "widgets.example.com" (.string "b/serving") "webhook"),
    (⟨⟨"", "v1", "Namespace"⟩, "b", none⟩, ofId ⟨⟨"", "v1", "Namespace"⟩, "b", none⟩ [])]
  distinct := by decide

/-- Three of these resources are put under their identities, and stay as they are. Two accounts that have
the same identity by now are not put in one manifest. -/
theorem settles_staleKeys :
    (∃ n, staleKeys.forPlatform [("webhook", "secret")] = .ok n ∧ n.size = 3 ∧ ¬ staleKeys.IsKeyed ∧
      n.IsKeyed ∧ n.forPlatform [("webhook", "secret")] = .ok n ∧
      ∀ s : Session, s.manifest = n →
        s.usePlatformCertificates = (.ok (), { s with platformBindings := [] })) ∧
    Session.staleAccounts.forPlatform [] = .error (.conflict (accountIn "b" "manager").id) := by
  constructor
  · obtain ⟨n, hn, hsize⟩ := exists_ok_of_toOption (f := size) (b := 3)
      (x := staleKeys.forPlatform [("webhook", "secret")]) (by decide +kernel)
    obtain ⟨-, -, hsettles⟩ := forPlatform_settles staleKeys [("webhook", "secret")]
    obtain ⟨-, hkeyed, hagain, hsession⟩ := hsettles n hn
    refine ⟨n, hn, hsize, fun h => ?_, hkeyed, hagain, hsession⟩
    exact absurd (h _ List.mem_cons_self) (by decide)
  · obtain ⟨-, hfails, -⟩ := forPlatform_settles Session.staleAccounts []
    refine (hfails _).2 ⟨_, ⟨[(accountIn "b" "manager").id], [], ?_, List.nodup_singleton _, ?_⟩, rfl⟩
    · decide +kernel
    · exact List.mem_singleton_self _

end Manifest

end ProviderAssets
