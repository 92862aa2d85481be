import Mathlib.Data.List.Nodup
import ProviderAssets.Proofs.Stages

/-!
# Stages go over each resource by itself

A manifest can be cut in two, and each part be brought through a stage by itself. A stage is local if
nothing is different then: where it succeeds on the whole, it does so on the parts, and its result is
that of the one part followed by that of the other (`Manifest.IsLocal`). All stages of a release are
local where the bindings of services are given (`Manifest.isLocal_stages`), and so a whole release is
divided as its parts are (`Release.stages_append`). The bindings are the one thing by which resources
have to do with each other: a stage that finds them by itself is not local
(`Manifest.not_isLocal_withPlatformCertificates`).
-/

namespace ProviderAssets

namespace Manifest

variable {α : Type}

/-! ## One manifest after the other -/

/-- Two manifests without a common key, one after the other. -/
def append (a b : Manifest) (h : a.keys.Disjoint b.keys) : Manifest where
  entries := a.entries ++ b.entries
  distinct := by
    rw [List.map_append, List.nodup_append']
    exact ⟨a.distinct, b.distinct, h⟩

section

variable (a b : Manifest) (h : a.keys.Disjoint b.keys)

/-- The resources of both, in order. -/
theorem resources_append : (a.append b h).resources = a.resources ++ b.resources := List.map_append

variable {a b}

/-- Two manifests that are keyed by identity are so one after the other. -/
theorem IsKeyed.append (ha : a.IsKeyed) (hb : b.IsKeyed) : (a.append b h).IsKeyed := by
  intro e he
  obtain he | he := List.mem_append.1 he
  · exact ha e he
  · exact hb e he

end

variable {f : α → Except Error (Option Resource)} {xs ys : List α} {c : Manifest}

/-- What is made of the elements of two lists is made of the one and of the other by itself. -/
theorem collect_append_iff : collect f (xs ++ ys) = .ok c ↔
    ∃ (a b : Manifest) (h : a.keys.Disjoint b.keys),
      collect f xs = .ok a ∧ collect f ys = .ok b ∧ c = a.append b h := by
  constructor
  · intro hc
    obtain ⟨made, hmade, hres, hkeyed⟩ := collect_eq_ok hc
    -- What is made is cut where the list is.
    have hleft := (List.forall₂_take_append _ _ _ hmade.flip).flip
    have hright := (List.forall₂_drop_append _ _ _ hmade.flip).flip
    rw [← List.take_append_drop xs.length made, List.filterMap_append] at hres
    have hnodup := hkeyed.nodup_ids
    rw [hres, List.map_append, List.nodup_append'] at hnodup
    obtain ⟨hnodupLeft, hnodupRight, hdisjoint⟩ := hnodup
    obtain ⟨a, ha, hresA, hkeyedA⟩ := exists_collect hleft hnodupLeft
    obtain ⟨b, hb, hresB, hkeyedB⟩ := exists_collect hright hnodupRight
    rw [← hresA, ← hresB, ← hkeyedA.keys_eq, ← hkeyedB.keys_eq] at hdisjoint
    refine ⟨a, b, hdisjoint, ha, hb, hkeyed.eq_of_resources_eq (hkeyedA.append hdisjoint hkeyedB) ?_⟩
    rw [resources_append, hresA, hresB, hres]
  · rintro ⟨a, b, h, ha, hb, rfl⟩
    obtain ⟨madeA, hmadeA, hresA, hkeyedA⟩ := collect_eq_ok ha
    obtain ⟨madeB, hmadeB, hresB, hkeyedB⟩ := collect_eq_ok hb
    refine collect_iff_isCollected.2
      ⟨madeA ++ madeB, List.rel_append hmadeA hmadeB, ?_, hkeyedA.append h hkeyedB⟩
    rw [resources_append, hresA, hresB, List.filterMap_append]

/-! ## Local stages -/

/-- A stage goes over two manifests one after the other as over each of them by itself: if it succeeds,
it does so on both as well, and what it gives are the two results one after the other. -/
def IsLocal (stage : Manifest → Except Error Manifest) : Prop :=
  ∀ (a b : Manifest) (h : a.keys.Disjoint b.keys) (c : Manifest), stage (a.append b h) = .ok c →
    ∃ (a' b' : Manifest) (h' : a'.keys.Disjoint b'.keys),
      stage a = .ok a' ∧ stage b = .ok b' ∧ c = a'.append b' h'

/-- A stage that makes something of each resource is local. -/
theorem isLocal_collect (f : Resource → Except Error (Option Resource)) :
    IsLocal fun m => collect f m.resources := by
  intro a b h c hc
  dsimp only at hc
  rw [resources_append] at hc
  exact collect_append_iff.1 hc

/-- A stage that cannot fail is local if it adds no keys and makes of entries in order what it makes of
each part of them. -/
theorem isLocal_ok {g : Manifest → Manifest} (hkeys : ∀ m, (g m).keys ⊆ m.keys)
    (hentries : ∀ a b h, (g (append a b h)).entries = (g a).entries ++ (g b).entries) :
    IsLocal fun m => .ok (g m) := by
  rintro a b h c ⟨⟩
  have h' : (g a).keys.Disjoint (g b).keys := fun _ ha hb => h (hkeys a ha) (hkeys b hb)
  exact ⟨g a, g b, h', rfl, rfl, eq_of_entries_eq (hentries a b h)⟩

/-- A change in place is local. -/
theorem isLocal_map (f : Resource → Resource) : IsLocal fun m => .ok (m.map f) :=
  isLocal_ok (fun m _ h => keys_map f m ▸ h) fun _ _ _ => List.map_append

/-- A selection is local. -/
theorem isLocal_filter (p : Resource → Bool) : IsLocal fun m => .ok (m.filter p) :=
  isLocal_ok (fun _ => (List.filter_sublist.map _).subset) fun _ _ _ => List.filter_append ..

/-- Two local stages one after the other are local. -/
theorem IsLocal.bind {f g : Manifest → Except Error Manifest} (hf : IsLocal f) (hg : IsLocal g) :
    IsLocal fun m => f m >>= g := by
  intro a b h c hc
  obtain ⟨d, hd, hc⟩ := bind_eq_ok.1 hc
  obtain ⟨a₁, b₁, h₁, ha, hb, rfl⟩ := hf a b h d hd
  obtain ⟨a₂, b₂, h₂, ha', hb', rfl⟩ := hg a₁ b₁ h₁ c hc
  exact ⟨a₂, b₂, h₂, bind_eq_ok.2 ⟨a₁, ha, ha'⟩, bind_eq_ok.2 ⟨b₁, hb, hb'⟩, rfl⟩

/-! ## The stages of a release -/

/-- The resources that are no roles and accounts, and those that are, each changed by an annotator. -/
def splitRbacBy (annotate : Resource → Resource) (m : Manifest) : Manifest × Manifest :=
  let (core, rbac) := m.partition (·.kind.isRbac)
  (core, rbac.map annotate)

/-- Relocation is local. -/
theorem isLocal_relocate (ns : String) : IsLocal (·.relocate ns) := isLocal_collect _

/-- Labelling is local. -/
theorem isLocal_label (p : Provider) : IsLocal fun m => .ok (m.label p) := isLocal_map _

/-- What the platform wants is local, where services are bound to secrets as given. -/
theorem isLocal_forPlatform (bound : Bindings) : IsLocal (·.forPlatform bound) := isLocal_collect _

/-- Exclusion is local. -/
theorem isLocal_exclude (e : Exclusion) : IsLocal fun m => .ok (m.exclude e) := isLocal_filter _

/-- Splitting roles and accounts off is local in both parts. -/
theorem isLocal_splitRbacBy (annotate : Resource → Resource) :
    IsLocal (fun m => .ok (m.splitRbacBy annotate).1) ∧
      IsLocal (fun m => .ok (m.splitRbacBy annotate).2) :=
  ⟨isLocal_filter (!·.kind.isRbac), (isLocal_filter (·.kind.isRbac)).bind (isLocal_map annotate)⟩

/-- What the platform wants of resources under their identities can be put in a manifest, whatever the
bindings. -/
theorem IsKeyed.exists_forPlatform {m : Manifest} (h : m.IsKeyed) (bound : Bindings) :
    ∃ n, m.forPlatform bound = .ok n := by
  have hids : ((m.resources.filterMap (Resource.forPlatform bound)).map (·.id)).Sublist
      (m.resources.map (·.id)) := by
    induction m.resources with
    | nil => exact .slnil
    | cons r rs ih =>
      cases hr : r.forPlatform bound with
      | none =>
        rw [List.filterMap_cons_none hr]
        exact ih.cons _
      | some s =>
        rw [List.filterMap_cons_some hr, List.map_cons, List.map_cons,
          (Resource.reannotated_forPlatform hr).id]
        exact ih.cons_cons _
  refine exists_collect_iff.2 ⟨m.resources.map (Resource.forPlatform bound), ?_, ?_⟩
  · exact List.forall₂_map_right_iff.2 (List.forall₂_same.2 fun _ _ => rfl)
  · rw [List.filterMap_map]
    exact h.nodup_ids.sublist hids

/-- Every stage of a release is local, where the bindings of services are given. With these, what the
platform wants of resources under their identities can always be put in a manifest. -/
theorem isLocal_stages (ns : String) (p : Provider) (bound : Bindings) (e : Exclusion) :
    IsLocal (·.relocate ns) ∧ IsLocal (fun m => .ok (m.label p)) ∧
    IsLocal (·.forPlatform bound) ∧ (∀ m : Manifest, m.IsKeyed → ∃ n, m.forPlatform bound = .ok n) ∧
    IsLocal (fun m => .ok (m.exclude e)) ∧
    (∀ annotate, IsLocal (fun m => .ok (m.splitRbacBy annotate).1) ∧
      IsLocal (fun m => .ok (m.splitRbacBy annotate).2)) ∧
    ∀ a m, splitRbac a m = m.splitRbacBy (·.annotate a false) := by
  exact ⟨isLocal_relocate ns, isLocal_label p, isLocal_forPlatform bound,
    fun m hm => hm.exists_forPlatform bound, isLocal_exclude e, isLocal_splitRbacBy, fun _ _ => rfl⟩

/-- A certificate. -/
def oneCertificate : Manifest := ofDistinct [Resource.certificateIn "a" "serving" "secret"] (by decide)

/-- A definition that refers to it. -/
def oneDefinition : Manifest :=
  ofDistinct [Resource.definitionFor "widgets.example.com" (.string "a/serving") "webhook"] (by decide)

/-- The certificate and the definition are different objects. -/
theorem disjoint_oneCertificate : oneCertificate.keys.Disjoint oneDefinition.keys :=
  List.disjoint_iff_ne.2 (by decide)

/-- The certificate and the definition are moved together as each of them is by itself. -/
theorem relocate_oneCertificate : ∃ (c a b : Manifest) (h : a.keys.Disjoint b.keys),
    (oneCertificate.append oneDefinition disjoint_oneCertificate).relocate "n" = .ok c ∧
      oneCertificate.relocate "n" = .ok a ∧ oneDefinition.relocate "n" = .ok b ∧ c = a.append b h := by
  obtain ⟨c, hc, -⟩ := exists_ok_of_toOption
    (x := (oneCertificate.append oneDefinition disjoint_oneCertificate).relocate "n") (f := size) (b := 2)
    (by decide +kernel)
  obtain ⟨hrelocate, -⟩ := isLocal_stages "n" ⟨"kubeadm", .bootstrap, "v1.4.0"⟩ [] (.contains "ipam")
  obtain ⟨a, b, h, ha, hb, hab⟩ := hrelocate _ _ disjoint_oneCertificate c hc
  exact ⟨c, a, b, h, hc, ha, hb, hab⟩

/-- A stage that finds the bindings by itself is not local: the definition is given the certificates of
the platform next to the certificate that it refers to, and not by itself. -/
theorem not_isLocal_withPlatformCertificates : ¬ IsLocal withPlatformCertificates := by
  intro h
  obtain ⟨c, hc, -⟩ := exists_ok_of_toOption
    (x := (oneCertificate.append oneDefinition disjoint_oneCertificate).withPlatformCertificates)
    (f := size) (b := 1) (by decide +kernel)
  obtain ⟨-, b, -, -, hb, -⟩ := h _ _ disjoint_oneCertificate c hc
  have hnone : oneDefinition.withPlatformCertificates.toOption = none := by decide +kernel
  rw [hb] at hnone
  cases hnone

end Manifest

namespace Release

open Manifest

variable {config : Config} {exclude : Option Exclusion} {p : Provider} {bound : Bindings}

/-- The resources of a release as the platform wants them, where services are bound to secrets as
given. -/
def prepareWith (config : Config) (p : Provider) (bound : Bindings) (m : Manifest) :
    Except Error Manifest := do
  let moved ← m.relocate config.targetNamespace
  (moved.label p).forPlatform bound

/-- Preparation with given bindings is local. -/
theorem isLocal_prepareWith (config : Config) (p : Provider) (bound : Bindings) :
    IsLocal (prepareWith config p bound) :=
  (isLocal_relocate _).bind ((isLocal_label p).bind (isLocal_forPlatform bound))

/-- Division is local in both parts. -/
theorem isLocal_divide (config : Config) (exclude : Option Exclusion) :
    IsLocal (fun m => .ok (divide config exclude m).1) ∧
      IsLocal (fun m => .ok (divide config exclude m).2) := by
  have hsplit := isLocal_splitRbacBy (·.annotate config.annotations false)
  refine ⟨?_, hsplit.2⟩
  cases exclude with
  | none => exact hsplit.1
  | some e => exact hsplit.1.bind (isLocal_exclude e)

/-- What all stages make of two manifests one after the other is, with the bindings that are found in
both together, what they make of each by itself. -/
theorem stages_append {a b core rbac : Manifest} {h : a.keys.Disjoint b.keys}
    (hstages : stages config exclude p (a.append b h) = .ok (core, rbac)) :
    ∃ bound a' b' hcore hrbac, prepareWith config p bound a = .ok a' ∧
      prepareWith config p bound b = .ok b' ∧
      core = (divide config exclude a').1.append (divide config exclude b').1 hcore ∧
      rbac = (divide config exclude a').2.append (divide config exclude b').2 hrbac := by
  obtain ⟨prepared, hprepared, hdivide⟩ := bind_eq_ok.1 hstages
  obtain ⟨moved, hmoved, hprepared⟩ := bind_eq_ok.1 hprepared
  obtain ⟨bound, hbound, hplatform⟩ := bind_eq_ok.1 hprepared
  obtain ⟨a', b', h', ha, hb, rfl⟩ := isLocal_prepareWith config p bound a b h prepared
    (bind_eq_ok.2 ⟨moved, hmoved, hplatform⟩)
  obtain ⟨_, _, hcore, ⟨⟩, ⟨⟩, hc⟩ := (isLocal_divide config exclude).1 a' b' h' _ rfl
  obtain ⟨_, _, hrbac, ⟨⟩, ⟨⟩, hr⟩ := (isLocal_divide config exclude).2 a' b' h' _ rfl
  obtain ⟨rfl, rfl⟩ := Prod.mk.inj (Except.ok.inj hdivide)
  exact ⟨bound, a', b', hcore, hrbac, ha, hb, hc, hr⟩

end Release

end ProviderAssets
