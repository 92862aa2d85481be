import ProviderAssets.Proofs.Atomicity

/-!
# Resources in another order

Where names and services are given twice, the order of resources decides which secret a service is bound
to. Where they agree, it does not matter: if no two certificates have the same name, then it does not
matter for whether bindings can be found (`Manifest.exists_bindings_perm`), and if in addition all resources
that ask through one service refer to certificates with the same secret, then a service is bound to
exactly the secret that is expected of it (`Manifest.get?_bindings_iff_expects`), which is known from the
resources in any order.

The main statement is `Session.usePlatformCertificates_perm`, about two sessions that hold the same
resources in different orders.
-/

namespace ProviderAssets

/-- If `p` holds for no two different elements, the last element for which it holds is the one for which
it does. -/
theorem isLast_iff_of_unique {α : Type} {p : α → Prop} {xs : List α} {x : α}
    (unique : ∀ x ∈ xs, ∀ y ∈ xs, p x → p y → x = y) : IsLast p xs x ↔ x ∈ xs ∧ p x := by
  refine ⟨fun h => ⟨h.mem, h.holds⟩, fun ⟨hx, hp⟩ => ?_⟩
  obtain ⟨y, hlast⟩ := IsLast.exists_of_mem hx hp
  rwa [unique x hx y hlast.mem hp hlast.holds]

/-- Services that are bound to the same secrets make the same of a resource. -/
theorem Resource.forPlatform_congr {a b : Bindings}
    (h : ∀ service, Fields.get? a service = Fields.get? b service) (r : Resource) :
    r.forPlatform a = r.forPlatform b := by
  unfold forPlatform
  rw [h]

namespace Manifest

open Resource

variable {m n : Manifest} {rs rs' : List Resource} {bound : Bindings} {service secret : String}

/-! ## Certificates with different names -/

/-- No two certificates have the same name. -/
def HasDistinctNames (rs : List Resource) : Prop :=
  ((rs.filter (·.kind = .certificate)).map (·.name)).Nodup

/-- Names are distinct in any order. -/
theorem HasDistinctNames.perm (h : HasDistinctNames rs) (hperm : rs.Perm rs') :
    HasDistinctNames rs' := ((hperm.filter _).map _).nodup_iff.1 h

/-- A name is that of one certificate at most. -/
theorem HasDistinctNames.unique (h : HasDistinctNames rs) (name : String) :
    ∀ c ∈ rs, ∀ d ∈ rs, c.IsCertificateNamed name → d.IsCertificateNamed name → c = d := by
  rintro c hc d hd ⟨hck, rfl⟩ ⟨hdk, hname⟩
  have selected {r : Resource} (hr : r ∈ rs) (hk : r.kind = .certificate) :
      r ∈ rs.filter (·.kind = .certificate) := List.mem_filter.2 ⟨hr, by simpa using hk⟩
  exact List.inj_on_of_nodup_map h (selected hc hck) (selected hd hdk) hname.symm

/-- What a text is resolved to does not depend on the order of resources. -/
theorem Resolves.perm (names : HasDistinctNames rs) (hperm : rs.Perm rs') {value : String}
    (h : Resolves rs value) : Resolves rs' value := by
  obtain ⟨ns, name, c, secret, hns, hvalue, hlast, hc, hne⟩ := h
  refine ⟨ns, name, c, secret, hns, hvalue, ?_, hc, hne⟩
  rw [isLast_iff_of_unique ((names.perm hperm).unique name)]
  exact ⟨hperm.mem_iff.1 hlast.mem, hlast.holds⟩

/-- So whether all certificates can be read and all requests answered does not, either. -/
theorem Resolvable.perm (names : HasDistinctNames rs) (hperm : rs.Perm rs') (h : Resolvable rs) :
    Resolvable rs' := by
  refine ⟨fun r hr => h.certificates r (hperm.mem_iff.2 hr), fun r hr haccepts value hvalue => ?_⟩
  obtain ⟨hresolves, hservice⟩ := h.requests r (hperm.mem_iff.2 hr) haccepts value hvalue
  exact ⟨hresolves.perm names hperm, hservice⟩

/-- Bindings can be found in one order exactly if they can in another one. -/
theorem exists_bindings_perm (names : HasDistinctNames m.resources)
    (hperm : m.resources.Perm n.resources) :
    (∃ bound, m.bindings = .ok bound) ↔ ∃ bound, n.bindings = .ok bound :=
  calc (∃ bound, m.bindings = .ok bound)
    _ ↔ Resolvable m.resources := exists_bindings_iff
    _ ↔ Resolvable n.resources := ⟨.perm names hperm, .perm (names.perm hperm) hperm.symm⟩
    _ ↔ ∃ bound, n.bindings = .ok bound := exists_bindings_iff.symm

/-! ## Requests that agree -/

/-- No two different secrets are expected of one service. -/
def Agrees (m : Manifest) : Prop :=
  ∀ service secret other, m.Expects service secret → m.Expects service other → secret = other

/-- What is expected does not depend on the order of resources. -/
theorem Expects.perm (hperm : m.resources.Perm n.resources) (h : m.Expects service secret) :
    n.Expects service secret := by
  obtain ⟨r, hr, hasks, value, ref, hvalue, href, c, hc, hcertificate⟩ := h
  exact ⟨r, hperm.mem_iff.1 hr, hasks, value, ref, hvalue, href, c, hperm.mem_iff.1 hc, hcertificate⟩

/-- A secret to which a service is bound is expected of it. -/
theorem expects_of_get?_bindings (h : m.bindings = .ok bound)
    (hget : Fields.get? bound service = some secret) : m.Expects service secret := by
  obtain ⟨secrets, hsecrets, hfold⟩ := bindings_eq_ok h
  obtain ⟨r, hlast, hr⟩ := ((Fields.isRecord_foldlM hfold).holds _ _).1 hget
  obtain ⟨haccepts, value, hvalue, hsecret, hservice⟩ := bindingOf_eq_ok.1 hr
  obtain ⟨ref, href, hfound, -⟩ := secretFor_eq_ok.1 hsecret
  obtain ⟨c, hc, hdecode⟩ := (get?_secretsOf hsecrets _ _).1 hfound
  exact ⟨r, hlast.mem, ⟨haccepts, by rw [hvalue]; rfl, hservice⟩, value, ref, hvalue, href, c, hc.mem,
    hc.holds, hdecode⟩

/-- Where requests agree, a service is bound to exactly the secret that is expected of it. -/
theorem get?_bindings_iff_expects (h : m.bindings = .ok bound) (agrees : m.Agrees) :
    Fields.get? bound service = some secret ↔ m.Expects service secret := by
  refine ⟨expects_of_get?_bindings h, fun hexpects => ?_⟩
  obtain ⟨r, hr, hasks, -⟩ := id hexpects
  -- The service is bound to some secret, which is expected as well.
  obtain ⟨last, hlast⟩ := IsLast.exists_of_mem hr hasks
  obtain ⟨-, -, -, other, -, -, -, -, -, hget⟩ := get?_bindings h hlast
  rw [hget, agrees service secret other hexpects (expects_of_get?_bindings h hget)]

/-- The bindings that are found in two orders are the same, service by service. -/
theorem get?_bindings_perm (agrees : m.Agrees) (hperm : m.resources.Perm n.resources) {a b : Bindings}
    (ha : m.bindings = .ok a) (hb : n.bindings = .ok b) (service : String) :
    Fields.get? a service = Fields.get? b service := by
  have agrees' : n.Agrees := fun service secret other hsecret hother =>
    agrees service secret other (hsecret.perm hperm.symm) (hother.perm hperm.symm)
  refine Option.ext fun secret => ?_
  calc Fields.get? a service = some secret
    _ ↔ m.Expects service secret := get?_bindings_iff_expects ha agrees
    _ ↔ n.Expects service secret := ⟨.perm hperm, .perm hperm.symm⟩
    _ ↔ Fields.get? b service = some secret := (get?_bindings_iff_expects hb agrees').symm

end Manifest

namespace Session

open Manifest Resource

variable {s t : Session}

/-- Two sessions hold the same resources in different orders, each under its identity. If no two
certificates have the same name, and no two secrets are expected of one service, then the platform's
certificates are given in both or in neither. If they are, the services are bound to the same secrets, and
the same becomes of every resource, so that what becomes of them is in the corresponding orders; if not,
both sessions stay as they are. -/
theorem usePlatformCertificates_perm (hs : s.manifest.IsKeyed) (ht : t.manifest.IsKeyed)
    (hperm : s.manifest.resources.Perm t.manifest.resources)
    (names : HasDistinctNames s.manifest.resources) (agrees : s.manifest.Agrees) :
    (∃ a b m n, s.manifest.bindings = .ok a ∧ t.manifest.bindings = .ok b ∧
      (∀ service, Fields.get? a service = Fields.get? b service) ∧
      s.usePlatformCertificates = (.ok (), { s with manifest := m, platformBindings := a }) ∧
      t.usePlatformCertificates = (.ok (), { t with manifest := n, platformBindings := b }) ∧
      m.IsKeyed ∧ n.IsKeyed ∧ m.resources.Perm n.resources ∧
      ∃ become, m.resources = s.manifest.resources.filterMap become ∧
        n.resources = t.manifest.resources.filterMap become) ∨
    ∃ e e', s.manifest.bindings = .error e ∧ t.manifest.bindings = .error e' ∧
      s.usePlatformCertificates = (.error e, s) ∧ t.usePlatformCertificates = (.error e', t) := by
  have both := exists_bindings_perm names hperm
  cases hbound : s.manifest.bindings with
  | error e =>
    right
    cases hbound' : t.manifest.bindings with
    | error e' =>
      exact ⟨e, e', rfl, rfl, usePlatformCertificates_of_error hbound,
        usePlatformCertificates_of_error hbound'⟩
    | ok b =>
      obtain ⟨a, ha⟩ := both.2 ⟨b, hbound'⟩
      cases hbound.symm.trans ha
  | ok a =>
    left
    obtain ⟨b, hbound'⟩ := both.1 ⟨a, hbound⟩
    have same := get?_bindings_perm agrees hperm hbound hbound'
    obtain ⟨m, hm, hsession⟩ := usePlatformCertificates_of_ok hs hbound
    obtain ⟨n, hn, hsession'⟩ := usePlatformCertificates_of_ok ht hbound'
    obtain ⟨hresources, hkeyed⟩ := collect_pure_eq_ok hm
    obtain ⟨hresources', hkeyed'⟩ := collect_pure_eq_ok hn
    -- By either bindings, the same becomes of a resource.
    rw [← funext (Resource.forPlatform_congr same)] at hresources'
    refine ⟨a, b, m, n, rfl, hbound', same, hsession, hsession', hkeyed, hkeyed', ?_,
      Resource.forPlatform a, hresources, hresources'⟩
    rw [hresources, hresources']
    exact hperm.filterMap _

/-- Two certificates with one secret, two definitions that are converted through one service and refer
to different ones of them, and that service. -/
def oneSecret : Session :=
  { manifest := ofDistinct [certificateIn "a" "first" "secret", certificateIn "a" "second" "secret",
      definitionFor "widgets.example.com" (.string "a/first") "webhook",
      definitionFor "gadgets.example.com" (.string "a/second") "webhook",
      serviceIn "a" "webhook"] (by decide) }

/-- The same resources, the other way round. -/
def oneSecretReversed : Session :=
  { manifest := ofDistinct oneSecret.manifest.resources.reverse (by decide) }

/-- The service is bound to the secret of both certificates, and is annotated with it first of all. -/
theorem usePlatformCertificates_reversed :
    ∃ a b m n, oneSecret.manifest.bindings = .ok a ∧ oneSecretReversed.manifest.bindings = .ok b ∧
      (∀ service, Fields.get? a service = Fields.get? b service) ∧
      oneSecret.usePlatformCertificates =
        (.ok (), { oneSecret with manifest := m, platformBindings := a }) ∧
      oneSecretReversed.usePlatformCertificates =
        (.ok (), { oneSecretReversed with manifest := n, platformBindings := b }) ∧
      n.resources = m.resources.reverse := by
  have agrees : oneSecret.manifest.Agrees := by
    have only {service secret : String} (h : oneSecret.manifest.Expects service secret) :
        secret = "secret" := by
      obtain ⟨-, -, -, -, -, -, -, c, hc, ⟨hk, -⟩, hdecode⟩ := h
      have all : ∀ c ∈ oneSecret.manifest.resources, c.kind = .certificate →
          (c.decode Shape.certificate).toOption = some "secret" := by decide +kernel
      have hsome := all c hc hk
      rw [hdecode] at hsome
      exact Option.some.inj hsome
    intro service secret other hsecret hother
    rw [only hsecret, only hother]
  obtain ⟨a, ha, -⟩ := exists_ok_of_toOption (x := oneSecret.manifest.bindings)
    (f := fun bound => bound) (b := [("webhook", "secret")]) (by decide +kernel)
  have names : HasDistinctNames oneSecret.manifest.resources := by
    unfold HasDistinctNames
    decide
  rcases usePlatformCertificates_perm (s := oneSecret) (t := oneSecretReversed)
    (isKeyed_ofDistinct (by decide)) (isKeyed_ofDistinct (by decide)) (by decide) names agrees
    with h | ⟨e, -, he, -⟩
  · obtain ⟨a, b, m, n, ha, hb, hsame, hs, ht, -, -, -, become, hm, hn⟩ := h
    refine ⟨a, b, m, n, ha, hb, hsame, hs, ht, ?_⟩
    rw [hn, hm, ← List.filterMap_reverse]
    rfl
  · cases ha.symm.trans he

end Session

end ProviderAssets
