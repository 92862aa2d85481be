import ProviderAssets.Proofs.Identity
import ProviderAssets.Proofs.Locality
import ProviderAssets.Proofs.ServingCertificate.Lookup

/-!
# Steps that fail

A step of a session that makes the manifest anew takes the resources out of it first, and they are lost if
it fails then. Under keys that are the identities of their resources, only a move can fail then: what the
platform wants of these resources can always be put in (`Manifest.IsKeyed.exists_forPlatform`). So the
certificates of the platform are given to all resources or to none (`usePlatformCertificates_atomic`), any
step but a move that fails leaves the session as it is (`step_eq_error`), and a session without moves is
what the steps of it make that succeed (`steps_succeeding`).
-/

namespace ProviderAssets.Session

variable {s : Session} {e : Error}

/-! ## Certificates of the platform -/

/-- By given bindings, resources under their identities are given the certificates of the platform in any
session. -/
theorem rebuild_forPlatform {m : Manifest} (h : m.IsKeyed) (s : Session) (bound : Bindings) :
    ∃ n, m.forPlatform bound = .ok n ∧
      s.rebuild (m.forPlatform bound) = (.ok (), { s with manifest := n }) := by
  obtain ⟨n, hn⟩ := h.exists_forPlatform bound
  refine ⟨n, hn, ?_⟩
  rw [hn]
  rfl

/-- Where bindings are found, they become those by which the certificates are given. -/
theorem usePlatformCertificates_of_ok (h : s.manifest.IsKeyed) {bound : Bindings}
    (hbound : s.manifest.bindings = .ok bound) : ∃ m, s.manifest.forPlatform bound = .ok m ∧
      s.usePlatformCertificates = (.ok (), { s with manifest := m, platformBindings := bound }) := by
  unfold usePlatformCertificates
  rw [hbound]
  exact rebuild_forPlatform h { s with platformBindings := bound } bound

/-- Where none are found, nothing is changed. -/
theorem usePlatformCertificates_of_error (hbound : s.manifest.bindings = .error e) :
    s.usePlatformCertificates = (.error e, s) := by
  unfold usePlatformCertificates
  rw [hbound]

/-- Resources under their identities are given the certificates of the platform, and the bindings by which
they are become those of the session; or the bindings cannot be found, and nothing in the session is
changed, whatever bindings it held. -/
theorem usePlatformCertificates_atomic (h : s.manifest.IsKeyed) :
    (∃ bound m, s.manifest.bindings = .ok bound ∧ s.manifest.forPlatform bound = .ok m ∧
      s.usePlatformCertificates = (.ok (), { s with manifest := m, platformBindings := bound })) ∨
    ∃ e, s.manifest.bindings = .error e ∧ s.usePlatformCertificates = (.error e, s) := by
  cases hbound : s.manifest.bindings with
  | error e => exact .inr ⟨e, rfl, usePlatformCertificates_of_error hbound⟩
  | ok bound =>
    obtain ⟨m, hm, hsession⟩ := usePlatformCertificates_of_ok h hbound
    exact .inl ⟨bound, m, rfl, hm, hsession⟩

/-- A session with a manifest, and with bindings of a call before. -/
def calledBefore (m : Manifest) : Session := { manifest := m, platformBindings := [("old", "secret")] }

/-- The bindings of the two definitions take the place of the old ones. A certificate that cannot be read
leaves these, and the manifest. -/
theorem platformCertificates_calledBefore :
    (∃ bound m, Manifest.oneService.bindings = .ok bound ∧
      (calledBefore .oneService).usePlatformCertificates =
        (.ok (), { manifest := m, platformBindings := bound })) ∧
    ∃ e, (calledBefore .lateCertificate).usePlatformCertificates =
      (.error e, calledBefore .lateCertificate) := by
  have hgood := usePlatformCertificates_atomic (s := calledBefore .oneService)
    (Manifest.isKeyed_ofDistinct (by decide))
  have hbad := usePlatformCertificates_atomic (s := calledBefore .lateCertificate)
    (Manifest.isKeyed_ofDistinct (by decide))
  obtain ⟨bound, hbound, -⟩ := exists_ok_of_toOption (x := Manifest.oneService.bindings)
    (f := Fields.keys) (b := ["webhook"]) (by decide +kernel)
  obtain ⟨e, he⟩ := exists_error_of_toOption (x := Manifest.lateCertificate.bindings) (by decide +kernel)
  constructor
  · obtain ⟨bound, m, hbound, -, hsession⟩ | ⟨e, he, -⟩ := hgood
    · exact ⟨bound, m, hbound, hsession⟩
    · cases hbound.symm.trans he
  · obtain ⟨bound, m, hbound, -, -⟩ | ⟨e, -, hsession⟩ := hbad
    · cases hbound.symm.trans he
    · exact ⟨e, hsession⟩

/-- Two accounts that were taken to one namespace in place are under keys that are not both theirs. -/
def staleAccounts : Manifest where
  entries := [((Resource.accountIn "a" "manager").id, .accountIn "b" "manager"),
    ((Resource.accountIn "b" "manager").id, .accountIn "b" "manager")]
  distinct := by decide

/-- Under such keys, the call fails after the bindings have been replaced, and no resources are left. -/
theorem platformCertificates_staleAccounts :
    ∃ e, (calledBefore staleAccounts).usePlatformCertificates = (.error e, {}) := by
  have hbound : staleAccounts.bindings = .ok [] := eq_ok_of_toOption (by decide +kernel)
  obtain ⟨e, he⟩ := exists_error_of_toOption (x := staleAccounts.forPlatform []) (by decide +kernel)
  refine ⟨e, ?_⟩
  unfold usePlatformCertificates
  rw [show (calledBefore staleAccounts).manifest = staleAccounts from rfl, hbound]
  dsimp only
  rw [he]
  rfl

/-! ## Steps -/

/-- A manifest that cannot be put in leaves a session as it is. -/
theorem replace_eq_error {result : Except Error Manifest} (h : (s.replace result).1 = .error e) :
    (s.replace result).2 = s := by
  cases result with
  | error e => rfl
  | ok m => cases h

/-- Where resources were taken out for it, none are left. -/
theorem rebuild_eq_error {result : Except Error Manifest} (h : (s.rebuild result).1 = .error e) :
    (s.rebuild result).2 = { s with manifest := .empty } := by
  cases result with
  | error e => rfl
  | ok m => cases h

/-- A step that fails leaves a session as it is, if its resources are under their identities; but a move
that fails leaves no resources. -/
theorem step_eq_error (h : s.manifest.IsKeyed) {x : Step} (hx : (s.step x).1 = .error e) :
    (s.step x).2 = s ∨ ∃ ns, x = .relocate ns ∧ (s.step x).2 = { s with manifest := .empty } := by
  cases x with
  | insert r => exact .inl (replace_eq_error hx)
  | reread => exact .inl (replace_eq_error hx)
  | relocate ns => exact .inr ⟨ns, rfl, rebuild_eq_error hx⟩
  | bind =>
    left
    unfold step at hx ⊢
    cases hbound : s.manifest.bindings with
    | error e => rfl
    | ok bound =>
      simp only [hbound] at hx
      cases hx
  | forPlatform bound =>
    obtain ⟨m, -, hrebuild⟩ := rebuild_forPlatform h s bound
    have hx : (s.rebuild (s.manifest.forPlatform bound)).1 = .error e := hx
    rw [hrebuild] at hx
    cases hx
  | platformCertificates =>
    left
    have hx : s.usePlatformCertificates.1 = .error e := hx
    show s.usePlatformCertificates.2 = s
    cases hbound : s.manifest.bindings with
    | error e => rw [usePlatformCertificates_of_error hbound]
    | ok bound =>
      obtain ⟨m, -, hsession⟩ := usePlatformCertificates_of_ok h hbound
      rw [hsession] at hx
      cases hx
  | label _ | exclude _ | splitRbac _ | setAside _ | retain _ | swap | edit _ _ => cases hx

/-- The steps that succeed when all steps are taken one after the other. -/
def succeeding (s : Session) : List Step → List Step
  | [] => []
  | x :: todo =>
    match (s.step x).1 with
    | .ok _ => x :: succeeding (s.step x).2 todo
    | .error _ => succeeding (s.step x).2 todo

/-- Without the steps that fail, a session without moves ends in the same way. -/
theorem steps_succeeding (h : s.IsCoherent) {todo : List Step} (keeps : ∀ x ∈ todo, x.KeepsIdentity)
    (stays : ∀ x ∈ todo, ∀ ns, x ≠ .relocate ns) : s.steps (s.succeeding todo) = s.steps todo := by
  -- Coherence is what every step keeps; it says that the keys are right where a step fails.
  induction todo generalizing s with
  | nil => rfl
  | cons x todo ih =>
    obtain ⟨hkeeps, keeps⟩ := List.forall_mem_cons.1 keeps
    obtain ⟨hstays, stays⟩ := List.forall_mem_cons.1 stays
    have rest := ih (h.step hkeeps) keeps stays
    unfold succeeding
    cases hx : (s.step x).1 with
    | ok u => exact rest
    | error e =>
      obtain hsame | ⟨ns, hmove, -⟩ := step_eq_error h.manifest.keyed hx
      · rw [hsame] at rest
        have hskip : s.steps (x :: todo) = s.steps todo := congrArg (Session.steps · todo) hsame
        rw [hskip, ← rest, hsame]
      · exact absurd hmove (hstays ns)

end ProviderAssets.Session
