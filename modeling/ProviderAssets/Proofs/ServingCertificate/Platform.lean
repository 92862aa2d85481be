import ProviderAssets.Proofs.ServingCertificate.Bindings
import ProviderAssets.Proofs.Views

/-!
# What resources become on the platform

`Resource.forPlatform` takes certificates, issuers and namespaces away, and changes the annotations
of services and of resources that can ask for an authority; nothing else. The main statements are
about a whole manifest that is given the certificates of the platform.

* `Manifest.servingSecret_of_last_asker`: a service is annotated with the secret of the certificate
  to which the last resource refers that is called through it.
* `Manifest.bundle_iff_text`: a resource that asks for an authority loses its request, and asks the
  platform in its place exactly if the request was a text.
-/

namespace ProviderAssets

open Json (Object Value)

/-- The kinds of resources that the platform makes needless. -/
def Kind.isNeedless : Kind → Bool
  | certificate | issuer | namespaceKind => true
  | _ => false

namespace Resource

/-! ## Requests for an authority -/

/-- The request for the authority of a certificate is taken away. -/
theorem get?_requestBundle_injectFrom (o : Object) :
    Fields.get? (requestBundle o) Annotation.injectFrom = none := by
  have erased : Fields.get? (Fields.erase o Annotation.injectFrom) Annotation.injectFrom = none := by
    rw [Fields.get?_erase, if_pos rfl]
  unfold requestBundle
  split
  · rw [Fields.get?_insert, if_neg (by decide)]
    exact erased
  · exact erased

/-- The platform is asked for its authority where a text asked for that of a certificate. -/
theorem get?_requestBundle_injectBundle (o : Object) :
    Fields.get? (requestBundle o) Annotation.injectBundle =
      if (Json.Object.text? o Annotation.injectFrom).isSome = true then some (.string "true")
      else Fields.get? o Annotation.injectBundle := by
  unfold requestBundle
  cases Json.Object.text? o Annotation.injectFrom with
  | some text => exact (Fields.get?_insert ..).trans (if_pos rfl)
  | none => exact (Fields.get?_erase ..).trans (if_neg (by decide))

/-- An annotation after a change of those that are there. -/
theorem annotation?_modifyAnnotations (r : Resource) (f : Object → Object) (key : String) :
    (r.modifyAnnotations f).annotation? key =
      r.annotations?.bind fun o => Fields.get? (f o) key := by
  unfold annotation?
  rw [annotations?_modifyAnnotations]
  cases r.annotations? <;> rfl

/-- With its request changed, a resource does not ask for the authority of a certificate. -/
theorem annotation?_modifyAnnotations_requestBundle (r : Resource) :
    (r.modifyAnnotations requestBundle).annotation? Annotation.injectFrom = none := by
  rw [annotation?_modifyAnnotations]
  simp only [get?_requestBundle_injectFrom]
  cases r.annotations? <;> rfl

/-! ## One resource -/

/-- A resource that can ask for an authority stays, with its request changed. -/
theorem forPlatform_of_acceptsInjection {r : Resource} (h : r.kind.acceptsInjection = true)
    (bound : Bindings) : r.forPlatform bound = some (r.modifyAnnotations requestBundle) := by
  unfold forPlatform
  unfold Kind.acceptsInjection at h
  cases hk : r.kind <;> simp_all

/-- Exactly the resources of needless kinds are taken away. -/
theorem forPlatform_eq_none_iff (r : Resource) (bound : Bindings) :
    r.forPlatform bound = none ↔ r.kind.isNeedless = true := by
  unfold forPlatform Kind.isNeedless
  cases r.kind with
  | service => cases hb : Fields.get? bound r.name <;> simp
  | _ => simp

/-- What a resource becomes differs from it in its annotations alone. -/
theorem reannotated_forPlatform {r s : Resource} {bound : Bindings}
    (h : r.forPlatform bound = some s) : r.Reannotated s := by
  unfold forPlatform at h
  split at h
  case h_1 | h_2 | h_3 =>
    cases h
    exact .modifyAnnotations r _
  case h_4 =>
    split at h
    · cases h
      exact .updateAnnotations r _
    · cases h
      exact .refl r
  case h_5 | h_6 | h_7 => cases h
  case h_8 =>
    cases h
    exact .refl r

/-- A resource stays as it is, has its request changed, or is a service that names its secret. -/
theorem forPlatform_cases {r s : Resource} {bound : Bindings} (h : r.forPlatform bound = some s) :
    s = r ∨ s = r.modifyAnnotations requestBundle ∨ r.kind = .service ∧ ∃ secret,
      s = r.updateAnnotations (Fields.insert · Annotation.servingSecret (.string secret)) := by
  unfold forPlatform at h
  split at h
  case h_1 | h_2 | h_3 =>
    cases h
    exact .inr (.inl rfl)
  case h_4 hk =>
    split at h
    · case h_1 secret _ =>
      cases h
      exact .inr (.inr ⟨hk, secret, rfl⟩)
    · cases h
      exact .inl rfl
  case h_5 | h_6 | h_7 => cases h
  case h_8 =>
    cases h
    exact .inl rfl

/-- A service that is bound to a secret is annotated with it. -/
theorem annotation?_of_bound {r s : Resource} {bound : Bindings} {secret : String}
    (h : r.forPlatform bound = some s) (hk : r.kind = .service)
    (hb : Fields.get? bound r.name = some secret) :
    s.annotation? Annotation.servingSecret = some (.string secret) := by
  unfold forPlatform at h
  rw [hk] at h
  simp only [hb] at h
  cases h
  unfold annotation?
  rw [annotations?_updateAnnotations, Option.bind_some, Fields.get?_insert, if_pos rfl]

/-! ## Small resources -/

/-- A certificate with a secret. -/
def certificateIn (ns name secret : String) : Resource :=
  ofId ⟨⟨"cert-manager.io", "v1", "Certificate"⟩, name, some ns⟩
    [("spec", .object [("secretName", .string secret)])]

/-- A definition of custom resources that asks for an authority and is converted through a
service. -/
def definitionFor (name : String) (request : Value) (service : String) : Resource :=
  ofId ⟨⟨"apiextensions.k8s.io", "v1", "CustomResourceDefinition"⟩, name, none⟩
    [("metadata", .object [("annotations",
        .object (Fields.insert [] Annotation.injectFrom request))]),
      ("spec", .object [("conversion", .object [("webhook", .object [("clientConfig",
        .object [("service", .object [("name", .string service)])])])])])]

/-- A service. -/
def serviceIn (ns name : String) : Resource := ofId ⟨⟨"", "v1", "Service"⟩, name, some ns⟩ []

/-- A service account. -/
def accountIn (ns name : String) : Resource := ofId ⟨⟨"", "v1", "ServiceAccount"⟩, name, some ns⟩ []

end Resource

namespace Manifest

open Resource

/-! ## Whole manifests -/

/-- A manifest that is given the certificates of the platform holds what its resources become, by
its own bindings. -/
theorem withPlatformCertificates_eq_ok {m n : Manifest}
    (h : m.withPlatformCertificates = .ok n) :
    ∃ bound, m.bindings = .ok bound ∧
      n.resources = m.resources.filterMap (Resource.forPlatform bound) ∧ n.IsKeyed := by
  unfold withPlatformCertificates at h
  obtain ⟨bound, hbound, h⟩ := bind_eq_ok.1 h
  exact ⟨bound, hbound, collect_pure_eq_ok h⟩

/-! ### Small manifests -/

/-- The manifest of some resources with different identities. -/
def ofDistinct (rs : List Resource) (h : (rs.map (·.id)).Nodup) : Manifest where
  entries := rs.map fun r => (r.id, r)
  distinct := by rwa [List.map_map]

/-- Its resources are under their identities. -/
theorem isKeyed_ofDistinct {rs : List Resource} (h : (rs.map (·.id)).Nodup) :
    (ofDistinct rs h).IsKeyed := by
  intro e he
  obtain ⟨r, -, rfl⟩ := List.mem_map.1 he
  rfl

/-- Two certificates have one name, and a definition refers to the first one. -/
def oneName : Manifest :=
  ofDistinct [certificateIn "a" "serving" "secret-a", certificateIn "b" "serving" "secret-b",
    definitionFor "widgets.example.com" (.string "a/serving") "webhook",
    serviceIn "a" "webhook"] (by decide)

/-- Two definitions are converted through one service, and refer to different certificates. -/
def oneService : Manifest :=
  ofDistinct [certificateIn "a" "first" "secret-a", certificateIn "a" "second" "secret-b",
    definitionFor "widgets.example.com" (.string "a/first") "webhook",
    definitionFor "gadgets.example.com" (.string "a/second") "webhook",
    serviceIn "a" "webhook"] (by decide)

/-- A definition asks for an authority by a number. -/
def numberRequest : Manifest :=
  ofDistinct [definitionFor "widgets.example.com" (.number (.integer 5)) "webhook"] (by decide)

/-! ### Secrets of services -/

/-- Every service of the new manifest that a resource asks through has the secret of the last
certificate that has the name to which the last such resource refers; and every resource that asks
by a text does so through some service. -/
theorem servingSecret_of_last_asker {m n : Manifest} (h : m.withPlatformCertificates = .ok n)
    {r : Resource} (hr : r ∈ m.resources) (hk : r.kind.acceptsInjection = true)
    (htext : r.injectionText?.isSome = true) :
    ∃ service, r.injectionService = .ok service ∧
      (∃ last, IsLast (·.AsksThrough service) m.resources last) ∧
      ∀ last, IsLast (·.AsksThrough service) m.resources last →
        ∃ value ref certificate secret, last.injectionText? = some value ∧
          InjectionReference.ofText? value = some ref ∧
          IsLast (·.IsCertificateNamed ref.certificate) m.resources certificate ∧
          certificate.decode Shape.certificate = .ok secret ∧ secret.isEmpty = false ∧
          ∀ s ∈ n.resources, s.kind = .service → s.name = service →
            s.annotation? Annotation.servingSecret = some (.string secret) := by
  obtain ⟨bound, hbound, hres, -⟩ := withPlatformCertificates_eq_ok h
  obtain ⟨value, hv⟩ := Option.isSome_iff_exists.1 htext
  obtain ⟨-, -, -, service, -, -, -, -, hservice⟩ := exists_of_bindings hbound hr hk hv
  refine ⟨service, hservice, IsLast.exists_of_mem hr ⟨hk, htext, hservice⟩, ?_⟩
  intro last hlast
  obtain ⟨value, ref, c, secret, hv, href, hc, hs, hne, hget⟩ := get?_bindings hbound hlast
  refine ⟨value, ref, c, secret, hv, href, hc, hs, hne, ?_⟩
  intro s hsmem hskind hsname
  -- The service was made of one with the same name, which is bound.
  rw [hres] at hsmem
  obtain ⟨source, -, hsource⟩ := List.mem_filterMap.1 hsmem
  have hid := (reannotated_forPlatform hsource).id
  have hkind : source.kind = .service := by
    unfold kind at hskind ⊢
    rw [← hid]
    exact hskind
  have hname : source.name = service := by
    unfold name at hsname ⊢
    rw [← hid]
    exact hsname
  exact annotation?_of_bound hsource hkind (hname ▸ hget)

/-- The service that two definitions are converted through has a secret. -/
theorem servingSecret_oneService :
    ∃ n secret, oneService.withPlatformCertificates = .ok n ∧ secret.isEmpty = false ∧
      ∀ s ∈ n.resources, s.kind = .service → s.name = "webhook" →
        s.annotation? Annotation.servingSecret = some (.string secret) := by
  obtain ⟨n, hn, -⟩ : ∃ n, oneService.withPlatformCertificates = .ok n ∧ n.size = 3 :=
    exists_ok_of_toOption (by decide +kernel)
  have hr : definitionFor "widgets.example.com" (.string "a/first") "webhook" ∈
      oneService.resources := by decide +kernel
  obtain ⟨service, hservice, ⟨last, hlast⟩, hall⟩ :=
    servingSecret_of_last_asker hn hr (by decide +kernel) (by decide +kernel)
  obtain rfl : service = "webhook" :=
    Except.ok.inj (hservice.symm.trans (eq_ok_of_toOption (by decide +kernel)))
  obtain ⟨-, -, -, secret, -, -, -, -, hne, hsecret⟩ := hall last hlast
  exact ⟨n, secret, hn, hne, hsecret⟩

/-- A resource that is called through the service refers by name to a certificate with the secret. -/
def Expects (m : Manifest) (service secret : String) : Prop :=
  ∃ r ∈ m.resources, r.AsksThrough service ∧ ∃ value ref, r.injectionText? = some value ∧
    InjectionReference.ofText? value = some ref ∧ ∃ c ∈ m.resources,
      c.IsCertificateNamed ref.certificate ∧ c.decode Shape.certificate = .ok secret

/-- Every service has every secret that is expected of it. -/
def MeetsExpectations (m n : Manifest) : Prop :=
  ∀ service secret, m.Expects service secret → ∀ s ∈ n.resources, s.kind = .service →
    s.name = service → s.annotation? Annotation.servingSecret = some (.string secret)

/-- A service without the secret of the first certificate of the small manifests. -/
def lacksFirst (s : Resource) : Bool :=
  s.kind = .service ∧ s.name = "webhook" ∧
    s.annotation? Annotation.servingSecret ≠ some (.string "secret-a")

/-- A manifest does not meet its expectations if it has a service without a secret that is expected
of it. -/
theorem not_meets_of_lacksFirst {m : Manifest} (expected : m.Expects "webhook" "secret-a")
    (h : m.withPlatformCertificates.toOption.map (·.resources.any lacksFirst) = some true) :
    ∃ n, m.withPlatformCertificates = .ok n ∧ ¬ m.MeetsExpectations n := by
  obtain ⟨n, hn, hany⟩ := exists_ok_of_toOption h
  obtain ⟨s, hs, hlacks⟩ := List.any_eq_true.1 hany
  obtain ⟨hkind, hname, hne⟩ := of_decide_eq_true hlacks
  exact ⟨n, hn, fun meets => hne (meets _ _ expected s hs hkind hname)⟩

/-- A certificate is passed over for a later one of the same name, and a reference for a later one
by a resource that is called through the same service. -/
theorem not_meetsExpectations :
    (∃ n, oneName.withPlatformCertificates = .ok n ∧ ¬ oneName.MeetsExpectations n) ∧
      ∃ n, oneService.withPlatformCertificates = .ok n ∧ ¬ oneService.MeetsExpectations n := by
  constructor
  · refine not_meets_of_lacksFirst ?_ (by decide +kernel)
    refine ⟨definitionFor "widgets.example.com" (.string "a/serving") "webhook", by decide +kernel,
      ⟨by decide +kernel, by decide +kernel, eq_ok_of_toOption (by decide +kernel)⟩,
      "a/serving", ⟨"a", "serving"⟩, by decide +kernel, by decide +kernel, ?_⟩
    exact ⟨certificateIn "a" "serving" "secret-a", by decide +kernel,
      ⟨by decide +kernel, by decide +kernel⟩, eq_ok_of_toOption (by decide +kernel)⟩
  · refine not_meets_of_lacksFirst ?_ (by decide +kernel)
    refine ⟨definitionFor "widgets.example.com" (.string "a/first") "webhook", by decide +kernel,
      ⟨by decide +kernel, by decide +kernel, eq_ok_of_toOption (by decide +kernel)⟩,
      "a/first", ⟨"a", "first"⟩, by decide +kernel, by decide +kernel, ?_⟩
    exact ⟨certificateIn "a" "first" "secret-a", by decide +kernel,
      ⟨by decide +kernel, by decide +kernel⟩, eq_ok_of_toOption (by decide +kernel)⟩

/-! ### Requests for an authority -/

/-- A resource with a request for an authority is in the new manifest without it, and with a request
to the platform exactly if the first one was a text or the second one was there before. A request by
a text names a certificate with a secret, and a service, or else there is no new manifest. -/
theorem bundle_iff_text {m n : Manifest} (h : m.withPlatformCertificates = .ok n) {r : Resource}
    (hr : r ∈ m.resources) (hk : r.kind.acceptsInjection = true) {value : Value}
    (hv : r.annotation? Annotation.injectFrom = some value) :
    (∃ s ∈ n.resources, s.id = r.id ∧ s.annotation? Annotation.injectFrom = none ∧
      (s.annotation? Annotation.injectBundle = some (.string "true") ↔
        (∃ text, value = .string text) ∨
          r.annotation? Annotation.injectBundle = some (.string "true"))) ∧
    ∀ text, value = .string text →
      ∃ ref certificate secret service, InjectionReference.ofText? text = some ref ∧
        IsLast (·.IsCertificateNamed ref.certificate) m.resources certificate ∧
        certificate.decode Shape.certificate = .ok secret ∧ secret.isEmpty = false ∧
        r.injectionService = .ok service := by
  obtain ⟨bound, hbound, hres, -⟩ := withPlatformCertificates_eq_ok h
  constructor
  · refine ⟨r.modifyAnnotations requestBundle, ?_, rfl,
      annotation?_modifyAnnotations_requestBundle r, ?_⟩
    · rw [hres]
      exact List.mem_filterMap.2 ⟨r, hr, forPlatform_of_acceptsInjection hk bound⟩
    · -- The annotations are an object, since one of them is known.
      obtain ⟨o, ho, hget⟩ := Option.bind_eq_some_iff.1 hv
      rw [annotation?_modifyAnnotations, annotation?, ho, Option.bind_some, Option.bind_some,
        get?_requestBundle_injectBundle]
      unfold Json.Object.text?
      rw [hget, Option.bind_some]
      cases value <;> simp [Value.string?]
  · rintro text rfl
    have htext : r.injectionText? = some text := by
      rw [injectionText?_eq, hv]
      rfl
    obtain ⟨ref, c, secret, service, hall⟩ := exists_of_bindings hbound hr hk htext
    exact ⟨ref, c, secret, service, hall⟩

/-- A definition that asks by a text asks the platform afterwards. -/
theorem bundle_oneName :
    ∃ n, oneName.withPlatformCertificates = .ok n ∧ ∃ s ∈ n.resources,
      s.name = "widgets.example.com" ∧ s.annotation? Annotation.injectFrom = none ∧
        s.annotation? Annotation.injectBundle = some (.string "true") := by
  obtain ⟨n, hn, -⟩ : ∃ n, oneName.withPlatformCertificates = .ok n ∧ n.size = 2 :=
    exists_ok_of_toOption (by decide +kernel)
  have hr : definitionFor "widgets.example.com" (.string "a/serving") "webhook" ∈
      oneName.resources := by decide +kernel
  have hv : (definitionFor "widgets.example.com" (.string "a/serving") "webhook").annotation?
      Annotation.injectFrom = some (.string "a/serving") := by decide +kernel
  obtain ⟨⟨s, hs, hid, hnone, hbundle⟩, -⟩ := bundle_iff_text hn hr (by decide +kernel) hv
  refine ⟨n, hn, s, hs, ?_, hnone, hbundle.2 (.inl ⟨_, rfl⟩)⟩
  unfold name
  rw [hid]
  decide +kernel

/-- Every resource with a request for an authority asks the platform in its place. -/
def KeepsRequests (m n : Manifest) : Prop :=
  ∀ r ∈ m.resources, r.kind.acceptsInjection = true →
    (r.annotation? Annotation.injectFrom).isSome = true → ∃ s ∈ n.resources, s.id = r.id ∧
      s.annotation? Annotation.injectFrom = none ∧
        s.annotation? Annotation.injectBundle = some (.string "true")

/-- A request by a number is taken away, and nothing is put in its place. -/
theorem not_keepsRequests :
    ∃ n, numberRequest.withPlatformCertificates = .ok n ∧ ¬ numberRequest.KeepsRequests n := by
  obtain ⟨n, hn, hnone⟩ := exists_ok_of_toOption (x := numberRequest.withPlatformCertificates)
    (f := (·.resources.all (·.annotation? Annotation.injectBundle = none))) (b := true)
    (by decide +kernel)
  refine ⟨n, hn, fun keeps => ?_⟩
  have hr : definitionFor "widgets.example.com" (.number (.integer 5)) "webhook" ∈
      numberRequest.resources := by decide +kernel
  obtain ⟨s, hs, -, -, hbundle⟩ := keeps _ hr (by decide +kernel) (by decide +kernel)
  have := of_decide_eq_true (List.all_eq_true.1 hnone s hs)
  rw [hbundle] at this
  cases this

end Manifest

end ProviderAssets
