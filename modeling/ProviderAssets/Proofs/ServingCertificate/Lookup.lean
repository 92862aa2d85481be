import ProviderAssets.Proofs.ServingCertificate.Resolution

/-!
# When bindings can be found

The bindings of a manifest are found exactly if every certificate can be read, and every request for an
authority can be answered: its text refers to a certificate whose secret is not empty, and the resource
is called through a service. The services of the requests are then bound in the order in which they
first come. Otherwise the error is about the first certificate that cannot be read, or, if there is none,
about the first request that cannot be answered (`Manifest.bindings_iff_resolvable`).

The certificates come first even where a request before them is wrong as well, since they are read in a
pass of their own.
-/

namespace ProviderAssets

open Json (Decoder)

/-! ## Texts without a slash -/

/-- A text is not cut exactly if the character is not in it. -/
theorem Text.splitFirst_eq_none_iff {c : Char} {s : String} : splitFirst c s = none ↔ c ∉ s.toList := by
  constructor
  · intro hnone hc
    obtain ⟨before, after, hsplit, hnew⟩ := List.eq_append_cons_of_mem hc
    have hcut : splitFirst c s = some (String.ofList before, String.ofList after) := by
      refine splitFirst_eq_some_iff.2 ⟨?_, ?_⟩
      · rwa [String.toList_ofList]
      · rwa [String.toList_ofList, String.toList_ofList]
    rw [hnone] at hcut
    cases hcut
  · intro hc
    cases h : splitFirst c s with
    | none => rfl
    | some parts =>
      obtain ⟨-, hsplit⟩ := splitFirst_eq_some_iff.1 h
      rw [hsplit] at hc
      exact absurd (List.mem_append_right _ List.mem_cons_self) hc

/-- A text is no reference exactly if it has no slash. -/
theorem InjectionReference.ofText?_eq_none_iff {s : String} : ofText? s = none ↔ '/' ∉ s.toList := by
  unfold ofText?
  rw [Option.map_eq_none_iff, Text.splitFirst_eq_none_iff]

/-! ## Services that cannot be found -/

namespace Resource

variable {α : Type} {r : Resource} {e : Error}

/-- Where a shape cannot be read of a resource, the error names the resource. -/
theorem decode_eq_error {d : Decoder α} (h : r.decode d = .error e) : ∃ m, e = .decode r.id m := by
  unfold decode at h
  cases hd : d (.object r.root) with
  | error m =>
    rw [hd] at h
    exact ⟨m, (Except.error.inj h).symm⟩
  | ok a =>
    rw [hd] at h
    cases h

/-- A resource that can ask for an authority is called through no service if it does not have the shape
of its kind, or names none. -/
theorem injectionService_eq_error (hk : r.kind.acceptsInjection = true)
    (h : r.injectionService = .error e) :
    (∃ m, e = .decode r.id m) ∨ e = .malformed r.id .noService := by
  have seen {α : Type} {d : Decoder α} {f : α → Option String}
      (h : f <$> r.decode d >>= r.serviceSeen = .error e) :
      (∃ m, e = .decode r.id m) ∨ e = .malformed r.id .noService := by
    obtain hdecode | ⟨service, -, hservice⟩ := bind_eq_error.1 h
    · exact .inl (decode_eq_error (map_eq_error.1 hdecode))
    · cases service with
      | none => exact .inr (Except.error.inj hservice).symm
      | some name => cases hservice
  cases hkind : r.kind with
  | customResourceDefinition =>
    rw [injectionService_conversion hkind] at h
    exact seen h
  | mutatingWebhookConfiguration =>
    rw [injectionService_webhooks (.inl hkind)] at h
    exact seen h
  | validatingWebhookConfiguration =>
    rw [injectionService_webhooks (.inr hkind)] at h
    exact seen h
  | _ =>
    rw [hkind] at hk
    cases hk

/-- If a resource is a certificate, it can be read. -/
def IsReadable (r : Resource) : Prop :=
  r.kind = .certificate → ∃ secret, r.decode Shape.certificate = .ok secret

/-- Whether a resource asks for an authority, by a text. -/
def asks (r : Resource) : Bool := r.kind.acceptsInjection && r.injectionText?.isSome

end Resource

namespace Manifest

open Resource

variable {rs : List Resource} {r : Resource} {value : String} {secrets : Fields String} {e : Error}

/-! ## What can be resolved -/

/-- What follows the first slash of a text is the name of a certificate, and the last one of this name
has a secret. -/
def Resolves (rs : List Resource) (value : String) : Prop :=
  ∃ ns name c secret, '/' ∉ ns.toList ∧ value = ns ++ "/" ++ name ∧
    IsLast (·.IsCertificateNamed name) rs c ∧ c.decode Shape.certificate = .ok secret ∧ secret ≠ ""

/-- If a resource asks for an authority by a text, this can be resolved, and the resource is called
through a service. -/
def IsAnswered (rs : List Resource) (r : Resource) : Prop :=
  r.kind.acceptsInjection = true → ∀ value, r.injectionText? = some value →
    Resolves rs value ∧ ∃ service, r.injectionService = .ok service

/-- The bindings of some resources can be looked up. -/
structure Resolvable (rs : List Resource) : Prop where
  /-- Every certificate can be read. -/
  certificates : ∀ r ∈ rs, IsReadable r
  /-- Every request for an authority is answered. -/
  requests : ∀ r ∈ rs, IsAnswered rs r

/-- Why a request cannot be answered. What is wrong with the text comes first, then the certificate that
it refers to, and then the service. -/
inductive RequestFault (rs : List Resource) (r : Resource) (value : String) : Error → Prop
  /-- The text is no reference. -/
  | malformed (text : '/' ∉ value.toList) : RequestFault rs r value (.malformedReference r.id value)
  /-- It is a reference, but leads to no secret. -/
  | unresolved (text : '/' ∈ value.toList) (certificate : ¬ Resolves rs value) :
    RequestFault rs r value (.unresolvedCertificate r.id value)
  /-- The resource does not have the shape in which its service is named. -/
  | decode {m : Mismatch} (certificate : Resolves rs value)
    (service : r.injectionService = .error (.decode r.id m)) : RequestFault rs r value (.decode r.id m)
  /-- It has that shape, but names no service. -/
  | noService (certificate : Resolves rs value)
    (service : r.injectionService = .error (.malformed r.id .noService)) :
    RequestFault rs r value (.malformed r.id .noService)

/-- The error is about the first certificate that cannot be read. If all can be, then it is about the
first request that cannot be answered. -/
inductive FirstUnresolved (rs : List Resource) : Error → Prop
  /-- A certificate cannot be read, and all before it can be. -/
  | certificate {before after : List Resource} {c : Resource} {m : Mismatch}
    (split : rs = before ++ c :: after) (readable : ∀ r ∈ before, IsReadable r)
    (kind : c.kind = .certificate) (fault : c.decode Shape.certificate = .error (.decode c.id m)) :
    FirstUnresolved rs (.decode c.id m)
  /-- A request cannot be answered, and all before it can be. -/
  | request {before after : List Resource} {r : Resource} {value : String} {e : Error}
    (certificates : ∀ r ∈ rs, IsReadable r) (split : rs = before ++ r :: after)
    (answered : ∀ r ∈ before, IsAnswered rs r) (accepts : r.kind.acceptsInjection = true)
    (text : r.injectionText? = some value) (fault : RequestFault rs r value e) : FirstUnresolved rs e

/-! ## Certificates -/

/-- A resource can be looked at for a secret exactly if it can be read where it is a certificate. -/
theorem exists_secretEntry_iff : (∃ o, secretEntry r = .ok o) ↔ IsReadable r := by
  unfold secretEntry IsReadable
  by_cases hk : r.kind = .certificate
  · rw [if_pos hk]
    constructor
    · rintro ⟨o, ho⟩ -
      obtain ⟨secret, hsecret, -⟩ := map_eq_ok.1 ho
      exact ⟨secret, hsecret⟩
    · intro h
      obtain ⟨secret, hsecret⟩ := h hk
      exact ⟨_, map_eq_ok.2 ⟨secret, hsecret, rfl⟩⟩
  · rw [if_neg hk]
    exact iff_of_true ⟨none, rfl⟩ fun h => absurd h hk

/-- It is a certificate otherwise, and the error is that of reading it. -/
theorem secretEntry_eq_error : secretEntry r = .error e ↔
    r.kind = .certificate ∧ r.decode Shape.certificate = .error e := by
  unfold secretEntry
  split
  · case isTrue hk => rw [map_eq_error, and_iff_right hk]
  · case isFalse hk => exact ⟨nofun, fun h => absurd h.1 hk⟩

/-- Secrets can be found exactly if all certificates can be read. -/
theorem exists_secretsOf_iff : (∃ secrets, secretsOf rs = .ok secrets) ↔ ∀ r ∈ rs, IsReadable r := by
  rw [secretsOf_eq_foldlM]
  simp only [Fields.foldlM_record_eq_ok, ← exists_secretEntry_iff, ← exists_forall₂_iff]
  constructor
  · rintro ⟨_, es, hes, -⟩
    exact ⟨es, hes⟩
  · rintro ⟨es, hes⟩
    exact ⟨_, es, hes, rfl⟩

/-- The first certificate that cannot be read is why secrets cannot be found. -/
theorem secretsOf_eq_error : secretsOf rs = .error e ↔
    ∃ before c after, rs = before ++ c :: after ∧ (∀ r ∈ before, IsReadable r) ∧
      c.kind = .certificate ∧ c.decode Shape.certificate = .error e := by
  rw [secretsOf_eq_foldlM, Fields.foldlM_record_eq_error]
  simp only [exists_secretEntry_iff, secretEntry_eq_error]

/-! ## Requests -/

/-- A text can be resolved exactly if a secret is found for it. -/
theorem exists_secretFor_iff (h : secretsOf rs = .ok secrets) :
    (∃ secret, secretFor secrets r value = .ok secret) ↔ Resolves rs value := by
  constructor
  · rintro ⟨secret, hsecret⟩
    obtain ⟨ref, href, hget, hne⟩ := secretFor_eq_ok.1 hsecret
    obtain ⟨hns, hvalue⟩ := InjectionReference.ofText?_eq_some_iff.1 href
    obtain ⟨c, hlast, hc⟩ := (get?_secretsOf h _ _).1 hget
    refine ⟨ref.ns, ref.certificate, c, secret, hns, hvalue, hlast, hc, ?_⟩
    rintro rfl
    cases hne
  · rintro ⟨ns, name, c, secret, hns, hvalue, hlast, hc, hne⟩
    have href : InjectionReference.ofText? value = some ⟨ns, name⟩ :=
      InjectionReference.ofText?_eq_some_iff.2 ⟨hns, hvalue⟩
    have hget : Fields.get? secrets name = some secret := (get?_secretsOf h _ _).2 ⟨c, hlast, hc⟩
    exact ⟨secret, secretFor_eq_ok.2 ⟨_, href, hget, by simpa using hne⟩⟩

/-- No secret is found for a text that is no reference. -/
theorem secretFor_of_none (h : InjectionReference.ofText? value = none) :
    secretFor secrets r value = .error (.malformedReference r.id value) := by
  unfold secretFor
  rw [h]
  rfl

/-- For a reference, a secret is found, or the error says that there is none. -/
theorem secretFor_of_some {ref : InjectionReference} (h : InjectionReference.ofText? value = some ref) :
    (∃ secret, secretFor secrets r value = .ok secret) ∨
      secretFor secrets r value = .error (.unresolvedCertificate r.id value) := by
  unfold secretFor
  rw [h]
  dsimp only
  cases (Fields.get? secrets ref.certificate).filter (!·.isEmpty) with
  | none => exact .inr rfl
  | some secret => exact .inl ⟨secret, rfl⟩

/-- A text that cannot be resolved has no slash, or it refers to no certificate with a secret. -/
theorem secretFor_eq_error (h : secretsOf rs = .ok secrets) : secretFor secrets r value = .error e ↔
    ('/' ∉ value.toList ∧ e = .malformedReference r.id value) ∨
      ('/' ∈ value.toList ∧ ¬ Resolves rs value ∧ e = .unresolvedCertificate r.id value) := by
  rw [← InjectionReference.ofText?_eq_none_iff, ← not_not (a := '/' ∈ value.toList),
    ← InjectionReference.ofText?_eq_none_iff, ← exists_secretFor_iff (r := r) h]
  cases href : InjectionReference.ofText? value with
  | none =>
    rw [secretFor_of_none href]
    constructor
    · intro he
      exact .inl ⟨rfl, (Except.error.inj he).symm⟩
    · rintro (⟨-, rfl⟩ | ⟨hsome, -⟩)
      · rfl
      · exact absurd rfl hsome
  | some ref =>
    have hfound : (∃ secret, secretFor secrets r value = .ok secret) ∨
        secretFor secrets r value = .error (.unresolvedCertificate r.id value) := secretFor_of_some href
    obtain ⟨secret, hsecret⟩ | hnone := hfound
    · rw [hsecret]
      refine iff_of_false nofun ?_
      rintro (⟨hnone, -⟩ | ⟨-, hunresolved, -⟩)
      · cases hnone
      · exact hunresolved ⟨secret, rfl⟩
    · rw [hnone]
      constructor
      · intro he
        exact .inr ⟨nofun, nofun, (Except.error.inj he).symm⟩
      · rintro (⟨hnone, -⟩ | ⟨-, -, rfl⟩)
        · cases hnone
        · rfl

/-- What a resource binds can be looked for exactly if its request, if it has one, can be answered. -/
theorem exists_bindingOf_iff (h : secretsOf rs = .ok secrets) :
    (∃ o, bindingOf secrets r = .ok o) ↔ IsAnswered rs r := by
  unfold bindingOf IsAnswered
  by_cases hk : r.kind.acceptsInjection = true
  · rw [if_pos hk]
    simp only [hk, true_imp_iff]
    cases r.injectionText? with
    | none => exact iff_of_true ⟨none, rfl⟩ nofun
    | some value =>
      simp only [Option.some.injEq, forall_eq', ← exists_secretFor_iff (r := r) h]
      constructor
      · rintro ⟨o, ho⟩
        obtain ⟨secret, hsecret, ho⟩ := bind_eq_ok.1 ho
        obtain ⟨service, hservice, -⟩ := bind_eq_ok.1 ho
        exact ⟨⟨secret, hsecret⟩, service, hservice⟩
      · rintro ⟨⟨secret, hsecret⟩, service, hservice⟩
        exact ⟨some (service, secret),
          bind_eq_ok.2 ⟨secret, hsecret, bind_eq_ok.2 ⟨service, hservice, rfl⟩⟩⟩
  · rw [if_neg hk]
    exact iff_of_true ⟨none, rfl⟩ fun hk' => absurd hk' hk

/-- It is a request that cannot be answered otherwise, and the error says why. -/
theorem bindingOf_eq_error (h : secretsOf rs = .ok secrets) : bindingOf secrets r = .error e ↔
    r.kind.acceptsInjection = true ∧
      ∃ value, r.injectionText? = some value ∧ RequestFault rs r value e := by
  unfold bindingOf
  by_cases hk : r.kind.acceptsInjection = true
  · rw [if_pos hk, and_iff_right hk]
    cases r.injectionText? with
    | none =>
      refine ⟨nofun, ?_⟩
      rintro ⟨value, hvalue, -⟩
      cases hvalue
    | some value =>
      simp only [Option.some.injEq, exists_eq_left']
      rw [bind_eq_error, secretFor_eq_error h]
      constructor
      · rintro ((⟨htext, rfl⟩ | ⟨htext, hunresolved, rfl⟩) | ⟨secret, hsecret, hservice⟩)
        · exact .malformed htext
        · exact .unresolved htext hunresolved
        · have hresolves : Resolves rs value := (exists_secretFor_iff h).1 ⟨secret, hsecret⟩
          obtain hservice | ⟨service, -, ⟨⟩⟩ := bind_eq_error.1 hservice
          obtain ⟨m, rfl⟩ | rfl := injectionService_eq_error hk hservice
          · exact .decode hresolves hservice
          · exact .noService hresolves hservice
      · have service {e : Error} (hresolves : Resolves rs value) (he : r.injectionService = .error e) :
            ∃ secret, secretFor secrets r value = .ok secret ∧
              (r.injectionService >>= fun service => pure (some (service, secret))) = .error e := by
          obtain ⟨secret, hsecret⟩ := (exists_secretFor_iff (r := r) h).2 hresolves
          exact ⟨secret, hsecret, bind_eq_error.2 (.inl he)⟩
        rintro (htext | ⟨htext, hunresolved⟩ | ⟨hresolves, hservice⟩ | ⟨hresolves, hservice⟩)
        · exact .inl (.inl ⟨htext, rfl⟩)
        · exact .inl (.inr ⟨htext, hunresolved, rfl⟩)
        · exact .inr (service hresolves hservice)
        · exact .inr (service hresolves hservice)
  · rw [if_neg hk]
    exact iff_of_false nofun fun h => hk h.1

/-! ## Bindings -/

variable {m : Manifest} {bound : Bindings}

/-- Bindings are looked for among the secrets that were found. -/
theorem bindings_eq_bind (m : Manifest) : m.bindings = secretsOf m.resources >>= fun secrets =>
    m.resources.foldlM (fun bound r => Fields.record bound <$> bindingOf secrets r) [] := by
  rw [bindings_eq, secretsOf_eq_foldlM]

/-- Bindings are found exactly if all certificates can be read and all requests answered. -/
theorem exists_bindings_iff : (∃ bound, m.bindings = .ok bound) ↔ Resolvable m.resources := by
  rw [bindings_eq_bind]
  constructor
  · rintro ⟨bound, hbound⟩
    obtain ⟨secrets, hsecrets, hbound⟩ := bind_eq_ok.1 hbound
    obtain ⟨es, hes, -⟩ := Fields.foldlM_record_eq_ok.1 hbound
    refine ⟨exists_secretsOf_iff.1 ⟨secrets, hsecrets⟩, fun r hr => ?_⟩
    exact (exists_bindingOf_iff hsecrets).1 (exists_forall₂_iff.1 ⟨es, hes⟩ r hr)
  · rintro ⟨hcertificates, hrequests⟩
    obtain ⟨secrets, hsecrets⟩ := exists_secretsOf_iff.2 hcertificates
    obtain ⟨es, hes⟩ := exists_forall₂_iff.2 fun r hr =>
      (exists_bindingOf_iff hsecrets).2 (hrequests r hr)
    exact ⟨_, bind_eq_ok.2 ⟨secrets, hsecrets, Fields.foldlM_record_eq_ok.2 ⟨es, hes, rfl⟩⟩⟩

/-- The services that are bound are those of the requests, in the order in which they first come. -/
theorem keys_bindings (h : m.bindings = .ok bound) :
    ∃ services, List.Forall₂ (fun r service => r.injectionService = .ok service)
      (m.resources.filter asks) services ∧ Fields.keys bound = services.eraseDups := by
  rw [bindings_eq_bind] at h
  obtain ⟨secrets, hsecrets, h⟩ := bind_eq_ok.1 h
  obtain ⟨es, hes, rfl⟩ := Fields.foldlM_record_eq_ok.1 h
  refine ⟨es.filterMap (Option.map (·.1)), ?_, Fields.keys_foldl_record es⟩
  refine forall₂_filter_filterMap (fun r o hr hasks => ?_) (fun r o hr hasks => ?_) hes
  · obtain ⟨hk, htext⟩ := Bool.and_eq_true_iff.1 hasks
    obtain ⟨value, hvalue⟩ := Option.isSome_iff_exists.1 htext
    unfold bindingOf at hr
    rw [if_pos hk, hvalue] at hr
    obtain ⟨secret, -, hr⟩ := bind_eq_ok.1 hr
    obtain ⟨service, hservice, hr⟩ := bind_eq_ok.1 hr
    cases hr
    exact ⟨service, rfl, hservice⟩
  · cases o with
    | none => rfl
    | some entry =>
      obtain ⟨hk, value, hvalue, -⟩ := bindingOf_eq_ok.1 hr
      unfold asks at hasks
      rw [hk, hvalue] at hasks
      cases hasks

/-- Bindings are not found because of the first certificate that cannot be read, or else of the first
request that cannot be answered. -/
theorem bindings_eq_error : m.bindings = .error e ↔ FirstUnresolved m.resources e := by
  rw [bindings_eq_bind, bind_eq_error, secretsOf_eq_error]
  constructor
  · rintro (⟨before, c, after, hsplit, hreadable, hk, hfault⟩ | ⟨secrets, hsecrets, hfold⟩)
    · obtain ⟨m, rfl⟩ := decode_eq_error hfault
      exact .certificate hsplit hreadable hk hfault
    · obtain ⟨before, r, after, hsplit, hbefore, hr⟩ := Fields.foldlM_record_eq_error.1 hfold
      obtain ⟨hk, value, hvalue, hfault⟩ := (bindingOf_eq_error hsecrets).1 hr
      exact .request (exists_secretsOf_iff.1 ⟨secrets, hsecrets⟩) hsplit
        (fun r hr => (exists_bindingOf_iff hsecrets).1 (hbefore r hr)) hk hvalue hfault
  · rintro (⟨hsplit, hreadable, hk, hfault⟩ | ⟨hcertificates, hsplit, hanswered, hk, hvalue, hfault⟩)
    · exact .inl ⟨_, _, _, hsplit, hreadable, hk, hfault⟩
    · obtain ⟨secrets, hsecrets⟩ := exists_secretsOf_iff.2 hcertificates
      have hr := (bindingOf_eq_error hsecrets).2 ⟨hk, _, hvalue, hfault⟩
      exact .inr ⟨secrets, hsecrets, Fields.foldlM_record_eq_error.2 ⟨_, _, _, hsplit,
        fun r hr => (exists_bindingOf_iff hsecrets).2 (hanswered r hr), hr⟩⟩

/-- Of every manifest, the bindings are found exactly if all its certificates can be read and all its
requests answered. The services of the requests are bound then, in the order in which they first come.
Else the error is that of the first certificate that cannot be read, or, if all can be, that of the
first request that cannot be answered. -/
theorem bindings_iff_resolvable (m : Manifest) :
    ((∃ bound, m.bindings = .ok bound) ↔ Resolvable m.resources) ∧
    (∀ bound, m.bindings = .ok bound →
      ∃ services, List.Forall₂ (fun r service => r.injectionService = .ok service)
        (m.resources.filter asks) services ∧ Fields.keys bound = services.eraseDups) ∧
    ∀ e, m.bindings = .error e ↔ FirstUnresolved m.resources e :=
  ⟨exists_bindings_iff, fun _ => keys_bindings, fun _ => bindings_eq_error⟩

/-- A certificate whose fields are a number. -/
def brokenCertificate : Resource :=
  .ofId ⟨⟨"cert-manager.io", "v1", "Certificate"⟩, "broken", some "a"⟩ [("spec", .number (.integer 5))]

/-- A definition that asks by a text without a slash, and a certificate that cannot be read. -/
def lateCertificate : Manifest :=
  ofDistinct [definitionFor "widgets.example.com" (.string "serving") "webhook", brokenCertificate]
    (by decide)

/-- Two definitions ask through one service, which is bound once. The certificate that cannot be read is
the error, though the definition before it is wrong as well. -/
theorem bindings_lateCertificate :
    (∃ bound services, oneService.bindings = .ok bound ∧ Resolvable oneService.resources ∧
      List.Forall₂ (fun r service => r.injectionService = .ok service)
        (oneService.resources.filter asks) services ∧ Fields.keys bound = services.eraseDups) ∧
    ∃ mismatch, lateCertificate.bindings = .error (.decode brokenCertificate.id mismatch) := by
  obtain ⟨hresolvable, hkeys, -⟩ := bindings_iff_resolvable oneService
  obtain ⟨bound, hbound, -⟩ := exists_ok_of_toOption (x := oneService.bindings) (f := Fields.keys)
    (b := ["webhook"]) (by decide +kernel)
  obtain ⟨services, hservices, heq⟩ := hkeys bound hbound
  refine ⟨⟨bound, services, hbound, hresolvable.1 ⟨bound, hbound⟩, hservices, heq⟩, ?_⟩
  obtain ⟨e, he⟩ := exists_error_of_toOption (x := brokenCertificate.decode Shape.certificate)
    (by decide +kernel)
  obtain ⟨mismatch, rfl⟩ := decode_eq_error he
  have readable : ∀ r ∈ [definitionFor "widgets.example.com" (.string "serving") "webhook"],
      IsReadable r := by
    intro r hr
    obtain rfl := List.mem_singleton.1 hr
    intro hk
    exact absurd hk (by decide)
  have split : lateCertificate.resources =
      [definitionFor "widgets.example.com" (.string "serving") "webhook"] ++ brokenCertificate :: [] := rfl
  have first : FirstUnresolved lateCertificate.resources (.decode brokenCertificate.id mismatch) :=
    .certificate split readable (by decide) he
  exact ⟨mismatch, ((bindings_iff_resolvable lateCertificate).2.2 _).2 first⟩

end Manifest

end ProviderAssets
