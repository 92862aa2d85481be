import ProviderAssets.Proofs.Stages

/-!
# No resource of a release gets lost

Every resource of a release goes to exactly one of three places: among the components, among the
roles and accounts, or away. `Release.assets_conserve` says which resources go where, that the two
manifests hold what is made of theirs in the order of the release and once each, and that the number
of dropped resources in the assets is that of all the others.
-/

namespace ProviderAssets

/-! ## Counting -/

/-- Two selections without a common element, and the elements that neither selects, are all. -/
theorem length_filter_add_length_filter {α : Type} {p q : α → Bool}
    (apart : ∀ x, q x = true → p x = false) (xs : List α) :
    (xs.filter p).length + (xs.filter q).length + xs.countP (fun x => !p x && !q x) =
      xs.length := by
  induction xs with
  | nil => rfl
  | cons x xs ih =>
    cases hp : p x with
    | true =>
      have hq : q x = false := by
        rw [Bool.eq_false_iff]
        intro hq
        rw [apart x hq] at hp
        cases hp
      simp only [List.filter_cons, List.countP_cons, List.length_cons, hp, hq]
      simp only [Bool.false_eq_true, if_true, if_false, List.length_cons, Bool.not_true,
        Bool.false_and]
      omega
    | false =>
      -- The element is counted once, by the second selection or among the rest.
      cases hq : q x <;>
      · simp only [List.filter_cons, List.countP_cons, List.length_cons, hp, hq]
        simp only [Bool.false_eq_true, if_true, if_false, List.length_cons, Bool.not_true,
          Bool.not_false, Bool.and_true, Bool.and_false]
        omega

/-- The platform needs roles and accounts. -/
theorem Kind.isNeedless_of_isRbac {k : Kind} (h : k.isRbac = true) : k.isNeedless = false := by
  cases k <;> first | rfl | cases h

namespace Release

/-! ## Where resources go -/

/-- Whether a resource of a release becomes a component: the platform does not make it needless, it
is no role or account, and it is a definition of custom resources or has a name that is not
excluded. -/
def isComponent (exclude : Option Exclusion) (r : Resource) : Bool :=
  !r.kind.isNeedless && keeps exclude r

/-- A role or account is no component. -/
theorem isComponent_of_isRbac (exclude : Option Exclusion) {r : Resource}
    (h : r.kind.isRbac = true) : isComponent exclude r = false := by
  unfold isComponent keeps
  rw [h, Bool.not_true, Bool.false_and, Bool.and_false]

/-- `t` is what all stages make of the role or account `r`. -/
def PreparesRbac (config : Config) (p : Provider) (bound : Bindings) (r t : Resource) : Prop :=
  ∃ s, Prepares config p bound r s ∧ t = s.annotate config.annotations false

/-- The resources `rs` of a release are shared out between the components `core` and the roles and
accounts `rbac`. -/
structure SharesOut (config : Config) (exclude : Option Exclusion) (p : Provider)
    (bound : Bindings) (rs : List Resource) (core rbac : Manifest) : Prop where
  /-- The components are made of the resources that become components, one of each, in order. -/
  components : List.Forall₂ (Prepares config p bound) (rs.filter (isComponent exclude))
    core.resources
  /-- The roles and accounts are made of those of the release, one of each, in order. -/
  accounts : List.Forall₂ (PreparesRbac config p bound) (rs.filter (·.kind.isRbac)) rbac.resources
  /-- Group, version, kind and name stay. -/
  same : ∀ r t, Prepares config p bound r t ∨ PreparesRbac config p bound r t →
    t.id.gvk = r.id.gvk ∧ t.id.name = r.id.name
  /-- No two resources of the manifests have the same identity. -/
  once : ((core.resources ++ rbac.resources).map (·.id)).Nodup

/-! ## Sharing out -/

variable {config : Config} {exclude : Option Exclusion} {p : Provider} {release : Release}
  {catalog : ImageCatalog} {a : Assets} {bound : Bindings}

/-- Whether a resource is kept is known before it is prepared. -/
theorem keeps_congr {r t : Resource} (h : Prepares config p bound r t) :
    keeps exclude t = keeps exclude r := by
  unfold keeps Resource.name
  rw [h.kind, h.same.2]

/-- A role or account that all stages go over keeps group, version, kind and name. -/
theorem PreparesRbac.same {r t : Resource} (h : PreparesRbac config p bound r t) :
    t.id.gvk = r.id.gvk ∧ t.id.name = r.id.name := by
  obtain ⟨s, hs, rfl⟩ := h
  exact hs.same

/-- A selection that can be made before the preparation as well as after it corresponds to itself, as
far as it leaves needless resources out. -/
theorem forall₂_select {select keep : Resource → Bool} {rs ts : List Resource}
    (known : ∀ r t, Prepares config p bound r t → keep t = keep r)
    (needed : ∀ r, select r = (keep r && !r.kind.isNeedless))
    (h : List.Forall₂ (Prepares config p bound) (rs.filter (!·.kind.isNeedless)) ts) :
    List.Forall₂ (Prepares config p bound) (rs.filter select) (ts.filter keep) := by
  have hsel : rs.filter select = (rs.filter (!·.kind.isNeedless)).filter keep := by
    rw [List.filter_filter]
    exact List.filter_congr fun r _ => needed r
  rw [hsel]
  refine List.rel_filter (fun r t hrt => ?_) h
  show keep r = true ↔ keep t = true
  rw [known r t hrt]

/-- No resource is in both manifests, and none is in one of them twice. -/
theorem nodup_divide (config : Config) (exclude : Option Exclusion) {m : Manifest}
    (h : m.IsKeyed) :
    (((divide config exclude m).1.resources ++ (divide config exclude m).2.resources).map
      (·.id)).Nodup := by
  obtain ⟨hcore, hrbac⟩ := isKeyed_divide config exclude h
  rw [List.map_append, List.nodup_append]
  refine ⟨hcore.nodup_ids, hrbac.nodup_ids, ?_⟩
  -- Two resources with the same identity are of the same kind, which only one manifest takes.
  intro i hi j hj hij
  obtain ⟨s, hs, rfl⟩ := List.mem_map.1 hi
  obtain ⟨t, ht, rfl⟩ := List.mem_map.1 hj
  rw [resources_divide_components] at hs
  rw [resources_divide_rbac] at ht
  obtain ⟨u, hu, rfl⟩ := List.mem_map.1 ht
  have hkeeps := (List.mem_filter.1 hs).2
  have hisRbac := (List.mem_filter.1 hu).2
  have hkind : s.kind = u.kind := Resource.kind_congr (congrArg ResourceId.gvk hij)
  unfold keeps at hkeeps
  rw [hkind, hisRbac] at hkeeps
  cases hkeeps

/-- The division of prepared resources shares out the resources that these are made of. -/
theorem sharesOut_divide (exclude : Option Exclusion) {rs : List Resource} {prepared : Manifest}
    (h : List.Forall₂ (Prepares config p bound) (rs.filter (!·.kind.isNeedless))
      prepared.resources) (hkey : prepared.IsKeyed) :
    SharesOut config exclude p bound rs (divide config exclude prepared).1
      (divide config exclude prepared).2 := by
  refine ⟨?_, ?_, ?_, nodup_divide config exclude hkey⟩
  · rw [resources_divide_components]
    exact forall₂_select (fun r t hrt => keeps_congr hrt) (fun r => Bool.and_comm ..) h
  · have needed (r : Resource) : r.kind.isRbac = (r.kind.isRbac && !r.kind.isNeedless) := by
      cases hk : r.kind.isRbac with
      | true =>
        rw [Kind.isNeedless_of_isRbac hk]
        rfl
      | false => rfl
    rw [resources_divide_rbac, List.forall₂_map_right_iff]
    have selected := forall₂_select (fun r t hrt => by rw [hrt.kind]) needed h
    exact selected.imp fun r s hs => ⟨s, hs, rfl⟩
  · rintro r t (ht | ht)
    · exact ht.same
    · exact ht.same

/-- In a run that succeeds, the resources that are read are shared out between the components and
the roles and accounts that the assets are made of, and as many as are not are counted as dropped.
-/
theorem assets_conserve (h : release.assets config exclude p catalog = .ok a) :
    ∃ all moved bound core rbac, Manifest.ofText release.components = .ok all ∧
      all.relocate config.targetNamespace = .ok moved ∧ (moved.label p).bindings = .ok bound ∧
      a.MadeOf config p core rbac ∧ SharesOut config exclude p bound all.resources core rbac ∧
      a.dropped = all.resources.countP (fun r => !isComponent exclude r && !r.kind.isRbac) ∧
      a.components + a.rbac + a.dropped = all.size := by
  obtain ⟨all, prepared, hall, hprepared, hold, hdropped⟩ := assets_eq_ok h
  obtain ⟨moved, bound, hmoved, hbound, hres, hkey⟩ := prepare_eq_ok hprepared
  have shares := sharesOut_divide exclude hres hkey
  -- The assets count resources of the manifests, of which the release has as many.
  have hcomponents := shares.components.length_eq
  have haccounts := shares.accounts.length_eq
  rw [Manifest.length_resources, ← hold.components] at hcomponents
  rw [Manifest.length_resources, ← hold.rbac] at haccounts
  have total := length_filter_add_length_filter (p := isComponent exclude)
    (q := (·.kind.isRbac)) (fun r hr => isComponent_of_isRbac exclude hr) all.resources
  rw [hcomponents, haccounts, Manifest.length_resources] at total
  refine ⟨all, moved, bound, _, _, hall, hmoved, hbound, hold, shares, ?_, ?_⟩
  · omega
  · omega

/-- The small release is shared out into one component and one account, and two resources are
dropped. -/
theorem sample_conserved :
    ∃ a all bound core rbac,
      sample.assets .standard (some (.contains "ipam")) sampleProvider .empty = .ok a ∧
        Manifest.ofText sample.components = .ok all ∧
        SharesOut .standard (some (.contains "ipam")) sampleProvider bound all.resources core rbac ∧
        core.size = 1 ∧ rbac.size = 1 ∧ all.size = 4 := by
  obtain ⟨a, ha, hcounts⟩ := exists_assets_sample
  obtain ⟨all, moved, bound, core, rbac, hall, -, -, hold, shares, -, total⟩ := assets_conserve ha
  simp only [Prod.mk.injEq] at hcounts
  have hcore := hold.components
  have hrbac := hold.rbac
  exact ⟨a, all, bound, core, rbac, ha, hall, shares, by omega, by omega, by omega⟩

end Release

end ProviderAssets
