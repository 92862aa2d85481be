import ProviderAssets.ServingCertificate.Binding
import ProviderAssets.Proofs.LastEntry

/-!
# Which secret a service is bound to

The bindings of a manifest are found in two passes. The first one records the secret of every
certificate under its name, the second one the secret that each resource refers to under the service
that the resource is called through. Both tables keep the last entry of a key. The main statement is
`Manifest.get?_bindings`: where the bindings are found at all, a service is bound to the secret of
the last certificate that has the name to which the last resource that is called through the service
refers.
-/

namespace ProviderAssets

namespace Resource

/-- The resource is the certificate that references by this name are resolved to. -/
def IsCertificateNamed (name : String) (r : Resource) : Prop :=
  r.kind = .certificate ∧ r.name = name

/-- The resource asks for an authority by a text, and is called through this service. -/
def AsksThrough (service : String) (r : Resource) : Prop :=
  r.kind.acceptsInjection = true ∧ r.injectionText?.isSome = true ∧
    r.injectionService = .ok service

end Resource

namespace Manifest

open Resource

/-! ## Secrets of certificates -/

/-- The entry of a resource in the table of secrets. -/
def secretEntry (r : Resource) : Except Error (Option (String × String)) :=
  if r.kind = .certificate then (fun secret => some (r.name, secret)) <$>
    r.decode Shape.certificate
  else pure none

/-- The table of secrets records these entries. -/
theorem secretsOf_eq_foldlM (rs : List Resource) :
    secretsOf rs = rs.foldlM (fun secrets r => Fields.record secrets <$> secretEntry r) [] := by
  unfold secretsOf
  congr 1
  funext secrets r
  unfold secretEntry
  split
  · cases r.decode Shape.certificate <;> rfl
  · rfl

/-- A resource has an entry under a name exactly if it is a certificate of that name, which then has
this secret. -/
theorem secretEntry_eq_ok {r : Resource} {name secret : String} :
    secretEntry r = .ok (some (name, secret)) ↔
      r.IsCertificateNamed name ∧ r.decode Shape.certificate = .ok secret := by
  unfold secretEntry IsCertificateNamed
  by_cases hk : r.kind = .certificate
  · rw [if_pos hk, map_eq_ok]
    constructor
    · rintro ⟨a, ha, he⟩
      cases he
      exact ⟨⟨hk, rfl⟩, ha⟩
    · rintro ⟨⟨-, rfl⟩, hs⟩
      exact ⟨secret, hs, rfl⟩
  · rw [if_neg hk]
    constructor
    · intro h
      cases h
    · intro h
      exact absurd h.1.1 hk

/-- The secret under a name is that of the last certificate of this name. -/
theorem get?_secretsOf {rs : List Resource} {secrets : Fields String}
    (h : secretsOf rs = .ok secrets) (name secret : String) :
    Fields.get? secrets name = some secret ↔
      ∃ c, IsLast (·.IsCertificateNamed name) rs c ∧ c.decode Shape.certificate = .ok secret := by
  rw [secretsOf_eq_foldlM] at h
  obtain ⟨read, holds⟩ := Fields.isRecord_foldlM h
  -- All certificates could be read, so that each has an entry under its name.
  have entry : ∀ r ∈ rs, (∃ w, secretEntry r = .ok (some (name, w))) ↔
      r.IsCertificateNamed name := by
    intro r hr
    constructor
    · rintro ⟨w, hw⟩
      exact (secretEntry_eq_ok.1 hw).1
    · intro hc
      obtain ⟨e, he⟩ := read r hr
      unfold secretEntry at he
      rw [if_pos hc.1, map_eq_ok] at he
      obtain ⟨w, hw, -⟩ := he
      exact ⟨w, secretEntry_eq_ok.2 ⟨hc, hw⟩⟩
  rw [holds]
  constructor
  · rintro ⟨c, hlast, hc⟩
    exact ⟨c, hlast.congr entry, (secretEntry_eq_ok.1 hc).2⟩
  · rintro ⟨c, hlast, hc⟩
    exact ⟨c, hlast.congr fun r hr => (entry r hr).symm, secretEntry_eq_ok.2 ⟨hlast.holds, hc⟩⟩

/-! ## Bindings of services -/

/-- A reference is resolved to a secret exactly if it has a slash, and the secret that is recorded
under the name after it is not empty. -/
theorem secretFor_eq_ok {secrets : Fields String} {r : Resource} {value secret : String} :
    secretFor secrets r value = .ok secret ↔
      ∃ ref, InjectionReference.ofText? value = some ref ∧
        Fields.get? secrets ref.certificate = some secret ∧ secret.isEmpty = false := by
  unfold secretFor
  cases href : InjectionReference.ofText? value with
  | none =>
    constructor
    · intro h
      cases h
    · rintro ⟨ref, h, -⟩
      cases h
  | some ref =>
    -- A secret without a name is as good as none.
    cases hs : (Fields.get? secrets ref.certificate).filter (!·.isEmpty) with
    | none =>
      constructor
      · intro h
        simp only [hs] at h
        cases h
      · rintro ⟨ref', href', hget, hne⟩
        obtain rfl := Option.some.inj href'
        rw [hget, Option.filter_some, hne] at hs
        cases hs
    | some s =>
      obtain ⟨hget, hne⟩ := Option.filter_eq_some_iff.1 hs
      have hne : s.isEmpty = false := by simpa using hne
      constructor
      · intro h
        simp only [hs] at h
        cases h
        exact ⟨ref, rfl, hget, hne⟩
      · rintro ⟨ref', href', hget', -⟩
        obtain rfl := Option.some.inj href'
        obtain rfl := Option.some.inj (hget.symm.trans hget')
        simp only [hs]
        rfl

/-- A resource binds a service to a secret exactly if it asks through the service by a text that is
resolved to the secret. -/
theorem bindingOf_eq_ok {secrets : Fields String} {r : Resource} {service secret : String} :
    bindingOf secrets r = .ok (some (service, secret)) ↔
      r.kind.acceptsInjection = true ∧ ∃ value, r.injectionText? = some value ∧
        secretFor secrets r value = .ok secret ∧ r.injectionService = .ok service := by
  unfold bindingOf
  by_cases hk : r.kind.acceptsInjection = true
  · rw [if_pos hk]
    cases hv : r.injectionText? with
    | none =>
      constructor
      · intro h
        cases h
      · rintro ⟨-, value, h, -⟩
        cases h
    | some value =>
      constructor
      · intro h
        obtain ⟨secret', hsecret, h⟩ := bind_eq_ok.1 h
        obtain ⟨service', hservice, h⟩ := bind_eq_ok.1 h
        cases h
        exact ⟨hk, value, rfl, hsecret, hservice⟩
      · rintro ⟨-, value', hvalue, hsecret, hservice⟩
        obtain rfl := Option.some.inj hvalue
        show (secretFor secrets r value >>= fun secret => _) = _
        rw [hsecret]
        show (r.injectionService >>= fun service => _) = _
        rw [hservice]
        rfl
  · rw [if_neg hk]
    constructor
    · intro h
      cases h
    · intro h
      exact absurd h.1 hk

/-- The bindings are found in two passes. -/
theorem bindings_eq (m : Manifest) :
    m.bindings =
      m.resources.foldlM (fun secrets r => Fields.record secrets <$> secretEntry r) [] >>=
        fun secrets =>
          m.resources.foldlM (fun bound r => Fields.record bound <$> bindingOf secrets r) [] := by
  unfold bindings
  rw [secretsOf_eq_foldlM]
  refine bind_congr fun secrets => ?_
  congr 1
  funext bound r
  cases bindingOf secrets r with
  | error e => rfl
  | ok e => cases e <;> rfl

/-- Where the bindings are found, both passes succeed. -/
theorem bindings_eq_ok {m : Manifest} {bound : Bindings} (h : m.bindings = .ok bound) :
    ∃ secrets, secretsOf m.resources = .ok secrets ∧
      m.resources.foldlM (fun bound r => Fields.record bound <$> bindingOf secrets r) [] =
        .ok bound := by
  rw [bindings_eq, ← secretsOf_eq_foldlM] at h
  exact bind_eq_ok.1 h

/-- Where bindings are found, every resource that asks for an authority by a text refers to a
certificate, and the last one of that name has a secret; and the resource is called through a
service. -/
theorem exists_of_bindings {m : Manifest} {bound : Bindings} (h : m.bindings = .ok bound)
    {r : Resource} (hr : r ∈ m.resources) (hk : r.kind.acceptsInjection = true) {value : String}
    (hv : r.injectionText? = some value) :
    ∃ ref c secret service, InjectionReference.ofText? value = some ref ∧
      IsLast (·.IsCertificateNamed ref.certificate) m.resources c ∧
      c.decode Shape.certificate = .ok secret ∧ secret.isEmpty = false ∧
      r.injectionService = .ok service := by
  obtain ⟨secrets, hsecrets, hfold⟩ := bindings_eq_ok h
  obtain ⟨e, he⟩ := (Fields.isRecord_foldlM hfold).read r hr
  unfold bindingOf at he
  rw [if_pos hk, hv] at he
  obtain ⟨secret, hsecret, he⟩ := bind_eq_ok.1 he
  obtain ⟨service, hservice, -⟩ := bind_eq_ok.1 he
  obtain ⟨ref, href, hget, hne⟩ := secretFor_eq_ok.1 hsecret
  obtain ⟨c, hlast, hc⟩ := (get?_secretsOf hsecrets _ _).1 hget
  exact ⟨ref, c, secret, service, href, hlast, hc, hne, hservice⟩

/-- A service is bound to the secret of the last certificate that has the name to which the last
resource that asks through the service refers. -/
theorem get?_bindings {m : Manifest} {bound : Bindings} (h : m.bindings = .ok bound)
    {service : String} {r : Resource} (hr : IsLast (·.AsksThrough service) m.resources r) :
    ∃ value ref c secret, r.injectionText? = some value ∧
      InjectionReference.ofText? value = some ref ∧
      IsLast (·.IsCertificateNamed ref.certificate) m.resources c ∧
      c.decode Shape.certificate = .ok secret ∧ secret.isEmpty = false ∧
      Fields.get? bound service = some secret := by
  obtain ⟨secrets, hsecrets, hfold⟩ := bindings_eq_ok h
  obtain ⟨read, holds⟩ := Fields.isRecord_foldlM hfold
  -- All resources could be looked at, so that each one that asks through the service binds it.
  have binds : ∀ r ∈ m.resources, r.AsksThrough service →
      ∃ secret, bindingOf secrets r = .ok (some (service, secret)) := by
    rintro r hr ⟨hk, htext, hservice⟩
    obtain ⟨value, hv⟩ := Option.isSome_iff_exists.1 htext
    obtain ⟨ref, c, secret, -, href, hlast, hc, hne, -⟩ := exists_of_bindings h hr hk hv
    have hget := (get?_secretsOf hsecrets ref.certificate secret).2 ⟨c, hlast, hc⟩
    exact ⟨secret, bindingOf_eq_ok.2
      ⟨hk, value, hv, secretFor_eq_ok.2 ⟨ref, href, hget, hne⟩, hservice⟩⟩
  have same : ∀ r ∈ m.resources, r.AsksThrough service ↔
      ∃ secret, bindingOf secrets r = .ok (some (service, secret)) := by
    refine fun r hr => ⟨binds r hr, ?_⟩
    rintro ⟨secret, hb⟩
    obtain ⟨hk, value, hv, -, hservice⟩ := bindingOf_eq_ok.1 hb
    exact ⟨hk, by rw [hv]; rfl, hservice⟩
  obtain ⟨secret, hb⟩ := binds r hr.mem hr.holds
  obtain ⟨-, value, hv, hsecret, -⟩ := bindingOf_eq_ok.1 hb
  obtain ⟨ref, href, hget, hne⟩ := secretFor_eq_ok.1 hsecret
  obtain ⟨c, hlast, hc⟩ := (get?_secretsOf hsecrets _ _).1 hget
  exact ⟨value, ref, c, secret, hv, href, hlast, hc, hne,
    (holds service secret).2 ⟨r, hr.congr same, hb⟩⟩

end Manifest

end ProviderAssets
