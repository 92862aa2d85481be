import ProviderAssets.Proofs.Outcomes
import ProviderAssets.Proofs.References
import ProviderAssets.Proofs.Shape
import ProviderAssets.Proofs.ServingCertificate.Bindings

/-!
# Bindings after a move

A move edits what the bindings of a manifest are found by: it sets the namespaces of services, and
writes injection references anew from their two parts. Bindings are found by names, however, and the
name of a service and the name of a certificate both come through a move. `SameOutcome` compares two
computations that may fail: they give the same, or fail for the same cause, where a cause is about
an object and not about the namespace that it lives in. `Manifest.bindings_relocate` says that the
bindings before and after a move compare like this.

The proof goes resource by resource. `Relocation.secretEntry_move` and `Relocation.bindingOf_move`
compare what the two passes over a manifest find of a resource and of what a move makes of it, and
`OutcomeRel.foldlM` puts these together.
-/

namespace ProviderAssets

open Json (Object Value Decoder)

/-! ## Outcomes -/

/-- Two identities are of the same object, in whatever namespaces. -/
structure ResourceId.SameObject (a b : ResourceId) : Prop where
  /-- Group, version and kind are the same. -/
  gvk : b.gvk = a.gvk
  /-- The name is the same. -/
  name : b.name = a.name

/-- Two errors in which bindings can end are of the same variant and about the same object. The texts
of references may differ. -/
inductive Error.SameCause : Error → Error → Prop where
  /-- The certificate that the object refers to is not there. -/
  | unresolvedCertificate {a b : ResourceId} (same : a.SameObject b) (s t : String) :
    SameCause (.unresolvedCertificate a s) (.unresolvedCertificate b t)
  /-- What the object has is no reference. -/
  | malformedReference {a b : ResourceId} (same : a.SameObject b) (s t : String) :
    SameCause (.malformedReference a s) (.malformedReference b t)
  /-- The object does not have its shape, for the same reason. -/
  | decode {a b : ResourceId} (same : a.SameObject b) (m : Mismatch) :
    SameCause (.decode a m) (.decode b m)
  /-- The object has the same defect. -/
  | malformed {a b : ResourceId} (same : a.SameObject b) (defect : Defect) :
    SameCause (.malformed a defect) (.malformed b defect)

/-- Two computations give the same result, or both fail for the same cause. -/
abbrev SameOutcome {α : Type} : Except Error α → Except Error α → Prop :=
  OutcomeRel Error.SameCause Eq

/-- What two shapes read is the same if it looks the same, down to the mismatch. -/
theorem sameOutcome_decode {α β : Type} {r s : Resource} (same : r.id.SameObject s.id) {d : Decoder α}
    {f : α → β} (h : f <$> d (.object s.root) = f <$> d (.object r.root)) :
    SameOutcome (f <$> r.decode d) (f <$> s.decode d) := by
  have hseen (t : Resource) :
      f <$> t.decode d = (f <$> d (.object t.root)).mapError (.decode t.id) := by
    unfold Resource.decode
    cases d (.object t.root) <;> rfl
  rw [hseen, hseen, h]
  cases f <$> d (.object r.root) with
  | error m => exact .error (.decode same m)
  | ok b => exact .ok rfl

/-! ## Services -/

namespace Resource

variable {r : Resource}

/-- The service that a resource is called through is the one that is seen in what is read of it. -/
def serviceSeen (r : Resource) : Option String → Except Error String
  | some name => pure name
  | none => throw (.malformed r.id .noService)

/-- The service of a custom resource definition is that of its conversion. -/
theorem injectionService_conversion (hk : r.kind = .customResourceDefinition) :
    r.injectionService = (fun c : Option Conversion =>
      (((c.bind (·.webhook)).bind (·.clientConfig)).bind (·.service)).map (·.name)) <$>
        r.decode Shape.customResourceDefinition >>= r.serviceSeen := by
  unfold injectionService
  rw [hk]
  cases r.decode Shape.customResourceDefinition with
  | error e => rfl
  | ok c => rcases c with _ | ⟨_ | ⟨_ | ⟨_ | _⟩⟩⟩ <;> rfl

/-- The service of a webhook configuration is that of its first webhook. -/
theorem injectionService_webhooks (hk : r.kind = .mutatingWebhookConfiguration ∨
      r.kind = .validatingWebhookConfiguration) :
    r.injectionService = (fun ws : List Webhook =>
      (ws.head?.bind (·.clientConfig.service)).map (·.name)) <$>
        r.decode Shape.webhookConfiguration >>= r.serviceSeen := by
  unfold injectionService
  rcases hk with hk | hk <;>
  · rw [hk]
    cases r.decode Shape.webhookConfiguration with
    | error e => rfl
    | ok ws => rcases ws with _ | ⟨⟨_, ⟨_ | _⟩⟩, _⟩ <;> rfl

/-- Other kinds are called through no service. -/
theorem injectionService_other (hk : r.kind.acceptsInjection = false) :
    r.injectionService = .error (.malformed r.id (.noInjection r.kind)) := by
  unfold injectionService
  generalize r.kind = kind at hk
  cases kind <;> first | rfl | cases hk

end Resource

/-! ## Moved resources -/

namespace Relocation

variable {ns : String} {r s : Resource}

/-- A move leaves an object the object that it is. -/
theorem sameObject_move (h : move ns r = .ok s) : r.id.SameObject s.id :=
  ⟨(moved_of_move h).gvk, (moved_of_move h).name⟩

/-- A resource that no path to a reference is for keeps all that is next to its metadata. -/
theorem get?_root_move (h : move ns r = .ok s)
    (hadm : ∀ rule ∈ serviceNamespaces ++ subjects, ¬ rule.selector.admits r.id.gvk = true)
    {key : String} (hkey : key ≠ "metadata") :
    Fields.get? s.root key = Fields.get? r.root key := by
  obtain ⟨r₁, r₂, h₁, h₂, rfl⟩ := move_eq_ok h
  have hgvk : (place ns r).id.gvk = r.id.gvk := by rw [place_id]
  have placed : r₁ = place ns r := by
    refine FieldRule.updateAll_of_not_admits (fun rule hrule => ?_) h₁
    rw [hgvk]
    exact hadm rule (List.mem_append_left _ hrule)
  have bound : r₂ = r₁ := by
    refine FieldRule.updateAll_of_not_admits (fun rule hrule => ?_) h₂
    rw [placed, hgvk]
    exact hadm rule (List.mem_append_right _ hrule)
  calc Fields.get? (moveInjection ns r₂).root key
      = Fields.get? r₂.root key := (reannotated_moveInjection ns r₂).root key hkey
    _ = Fields.get? (place ns r).root key := by rw [bound, placed]
    _ = Fields.get? r.root key := get?_root_place ns r hkey

/-- The secret of a certificate is found again after a move. -/
theorem secretEntry_move (h : move ns r = .ok s) :
    SameOutcome (Manifest.secretEntry r) (Manifest.secretEntry s) := by
  have same := sameObject_move h
  have hkind : s.kind = r.kind := Resource.kind_congr same.gvk
  unfold Manifest.secretEntry
  rw [hkind]
  by_cases hk : r.kind = .certificate
  · rw [if_pos hk, if_pos hk, show s.name = r.name from same.name]
    refine sameOutcome_decode same (congrArg _ ?_)
    unfold Shape.certificate
    rw [Decoder.record1_object, Decoder.record1_object,
      get?_root_move h (not_admits_of_kind hk (by decide) (by decide)) (by decide)]
  · rw [if_neg hk, if_neg hk]
    exact .ok rfl

/-- The namespaces of the services that a definition names are rewritten. -/
theorem rewrites_conversion (h : move ns r = .ok s) (hk : r.kind = .customResourceDefinition) :
    FieldPath.RewritesUnder (Shape.Renames ns) conversionNamespace r.root s.root :=
  rewrites_service h conversions_mem
    ((FieldRule.admits_ofKind ..).2 (Resource.gvk_kind hk (by decide)))

/-- So are those that a webhook configuration names. -/
theorem rewrites_webhooks (h : move ns r = .ok s) (hk : r.kind = .mutatingWebhookConfiguration ∨
      r.kind = .validatingWebhookConfiguration) :
    FieldPath.RewritesUnder (Shape.Renames ns) webhookNamespace r.root s.root := by
  rcases hk with hk | hk
  · exact rewrites_service h mutatingWebhooks_mem
      ((FieldRule.admits_ofKind ..).2 (Resource.gvk_kind hk (by decide)))
  · exact rewrites_service h validatingWebhooks_mem
      ((FieldRule.admits_ofKind ..).2 (Resource.gvk_kind hk (by decide)))

/-- The name of the service that a resource is called through is found again after a move. -/
theorem injectionService_move (h : move ns r = .ok s) :
    SameOutcome r.injectionService s.injectionService := by
  have same := sameObject_move h
  have hkind : s.kind = r.kind := Resource.kind_congr same.gvk
  have seen (service : Option String) : SameOutcome (r.serviceSeen service) (s.serviceSeen service) := by
    cases service with
    | none => exact .error (.malformed same .noService)
    | some name => exact .ok rfl
  -- The kind decides which shape is read, and which path of a move leads into it.
  by_cases hcrd : r.kind = .customResourceDefinition
  · rw [Resource.injectionService_conversion hcrd,
      Resource.injectionService_conversion (hkind.trans hcrd)]
    refine (sameOutcome_decode same ?_).bind fun service _ heq => heq ▸ seen service
    exact (Shape.overlooks_conversionNamespace ns).under (by decide) (rewrites_conversion h hcrd)
  by_cases hwebhooks : r.kind = .mutatingWebhookConfiguration ∨
      r.kind = .validatingWebhookConfiguration
  · rw [Resource.injectionService_webhooks hwebhooks,
      Resource.injectionService_webhooks (hkind ▸ hwebhooks)]
    refine (sameOutcome_decode same ?_).bind fun service _ heq => heq ▸ seen service
    exact (Shape.overlooks_webhookNamespace ns).under (by decide) (rewrites_webhooks h hwebhooks)
  · have hother : r.kind.acceptsInjection = false := by
      generalize r.kind = kind at hcrd hwebhooks
      cases kind <;> simp_all [Kind.acceptsInjection]
    rw [Resource.injectionService_other hother,
      Resource.injectionService_other (hkind.symm ▸ hother), hkind]
    exact .error (.malformed same _)

/-- A text is resolved to the same secret by both resources, if it refers to the same certificate. -/
theorem secretFor_move (h : move ns r = .ok s) (secrets : Fields String) {old new : String}
    (href : (InjectionReference.ofText? new).map (·.certificate) =
      (InjectionReference.ofText? old).map (·.certificate)) :
    SameOutcome (Manifest.secretFor secrets r old) (Manifest.secretFor secrets s new) := by
  have same := sameObject_move h
  unfold Manifest.secretFor
  cases hold : InjectionReference.ofText? old with
  | none =>
    rw [hold, Option.map_none, Option.map_eq_none_iff] at href
    rw [href]
    exact .error (.malformedReference same old new)
  | some ref =>
    rw [hold, Option.map_some, Option.map_eq_some_iff] at href
    obtain ⟨ref', hnew, hcertificate⟩ := href
    rw [hnew]
    dsimp only
    rw [hcertificate]
    cases (Fields.get? secrets ref.certificate).filter (!·.isEmpty) with
    | none => exact .error (.unresolvedCertificate same old new)
    | some secret => exact .ok rfl

/-- The text by which a moved resource asks for an authority refers to the same certificate as before,
and there is one exactly if there was. -/
theorem injectionText?_move (h : move ns r = .ok s) (hns : '/' ∉ ns.toList) :
    (s.injectionText? = none ∧ r.injectionText? = none) ∨
      ∃ old new, r.injectionText? = some old ∧ s.injectionText? = some new ∧
        (InjectionReference.ofText? new).map (·.certificate) =
          (InjectionReference.ofText? old).map (·.certificate) := by
  obtain ⟨t, rfl, hannotations⟩ := exists_eq_moveInjection h
  rw [← injectionText?_congr hannotations]
  cases href : t.injectionText?.bind InjectionReference.ofText? with
  | none =>
    -- There is no text, or one that is no reference, and it is left as it is.
    rw [moveInjection_of_none href]
    cases htext : t.injectionText? with
    | none => exact .inl ⟨rfl, rfl⟩
    | some text => exact .inr ⟨text, text, rfl, rfl, rfl⟩
  | some ref =>
    obtain ⟨old, hold, href'⟩ := Option.bind_eq_some_iff.1 href
    have hnew : InjectionReference.ofText? { ref with ns }.text = some { ref with ns } :=
      InjectionReference.ofText?_eq_some_iff.2 ⟨hns, rfl⟩
    refine .inr ⟨old, _, hold, injectionText?_moveInjection href, ?_⟩
    rw [hnew, href']
    rfl

/-- What a resource binds it binds after a move. -/
theorem bindingOf_move (h : move ns r = .ok s) (hns : '/' ∉ ns.toList) (secrets : Fields String) :
    SameOutcome (Manifest.bindingOf secrets r) (Manifest.bindingOf secrets s) := by
  have hkind : s.kind = r.kind := Resource.kind_congr (sameObject_move h).gvk
  unfold Manifest.bindingOf
  rw [hkind]
  by_cases hk : r.kind.acceptsInjection = true
  · rw [if_pos hk, if_pos hk]
    obtain ⟨hs, hr⟩ | ⟨old, new, hr, hs, href⟩ := injectionText?_move h hns
    · rw [hs, hr]
      exact .ok rfl
    · rw [hs, hr]
      refine (secretFor_move h secrets href).bind fun secret _ hsecret => ?_
      refine (injectionService_move h).bind fun service _ hservice => ?_
      exact .ok (by rw [hsecret, hservice])
  · rw [if_neg hk, if_neg hk]
    exact .ok rfl

end Relocation

namespace Manifest

variable {ns : String} {m n : Manifest}

/-- A move to a namespace without a slash does not change the bindings of a manifest: before and
after it, the same services are bound to the same secrets in the same order, or the same object is the
cause that none can be found. -/
theorem bindings_relocate (h : m.relocate ns = .ok n) (hns : '/' ∉ ns.toList) :
    SameOutcome m.bindings n.bindings := by
  have moved := (relocate_eq_ok h).1
  rw [bindings_eq, bindings_eq]
  -- Both folds carry the same table on, so that the tables are the same at every step.
  refine OutcomeRel.bind (.foldlM (moved.imp fun r s hrs secrets _ heq => ?_) rfl)
    fun secrets _ heq => .foldlM (moved.imp fun r s hrs bound _ heq' => ?_) rfl
  · subst heq
    exact (Relocation.secretEntry_move hrs).map fun _ _ => congrArg _
  · subst heq heq'
    exact (Relocation.bindingOf_move hrs hns secrets).map fun _ _ => congrArg _

/-- A definition refers to a certificate that has a slash in its name. -/
def slashInName : Manifest :=
  ofDistinct [.certificateIn "a" "b/serving" "secret",
    .definitionFor "widgets.example.com" (.string "a/b/serving") "webhook"] (by decide)

/-- The reference with two slashes is resolved after a move as before; and webhooks without a name, of
which no service can be read, are the cause of a failure before and after. -/
theorem bindings_moved_slashInName :
    (∃ n, slashInName.relocate "openshift-cluster-api" = .ok n ∧
      slashInName.bindings.toOption = some [("webhook", "secret")] ∧
      SameOutcome slashInName.bindings n.bindings) ∧
    ∃ n, oneWebhook.relocate "openshift-cluster-api" = .ok n ∧
      oneWebhook.bindings.toOption = none ∧ SameOutcome oneWebhook.bindings n.bindings := by
  have hns : '/' ∉ "openshift-cluster-api".toList := by decide +kernel
  obtain ⟨n, hn, -⟩ : ∃ n, slashInName.relocate "openshift-cluster-api" = .ok n ∧ n.size = 2 :=
    exists_ok_of_toOption (by decide +kernel)
  obtain ⟨k, hk, -⟩ : ∃ k, oneWebhook.relocate "openshift-cluster-api" = .ok k ∧ k.size = 3 :=
    exists_ok_of_toOption (by decide +kernel)
  exact ⟨⟨n, hn, by decide +kernel, bindings_relocate hn hns⟩,
    ⟨k, hk, by decide +kernel, bindings_relocate hk hns⟩⟩

end Manifest

end ProviderAssets
