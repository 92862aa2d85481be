import ProviderAssets.Proofs.Contents
import ProviderAssets.Proofs.Outcomes

/-!
# Providers that share a catalog

All providers write to one image catalog, under keys that are made of their types and names as one
text. A name may hold hyphens and colons, but a type holds no hyphen, so type and name can be told
apart again (`ProviderType.append_inj`), and so can the two keys of a provider by their ends
(`Image.eq_of_mem_ownKeys`). So a provider changes the catalog at its own keys and at that of the
proxy, which all of them share. `Job.thread_interferes` says what follows for several providers that
hand the catalog on: their order decides about the proxy only.
-/

namespace ProviderAssets

/-! ## Keys -/

/-- The type and the name of a provider can be told from the text that is made of them. -/
theorem ProviderType.append_inj {t u : ProviderType} {n m : String}
    (h : t.name ++ "-" ++ n = u.name ++ "-" ++ m) : t = u ∧ n = m := by
  have hchars := congrArg String.toList h
  simp only [String.toList_append, List.append_assoc] at hchars
  cases t <;> cases u <;> simp [ProviderType.name] at hchars ⊢
  all_goals exact String.toList_inj.1 hchars

namespace Image

variable {p q : Provider} {key : String}

/-- The key of the proxy, which all providers share. -/
def proxyKey : String := "kube-rbac-proxy"

/-- The keys that a provider has for itself: those of its manager and of its manager of addresses. -/
def ownKeys (p : Provider) : List String :=
  [p.type.name ++ "-" ++ p.name ++ ":manager", p.type.name ++ "-" ++ p.name ++ ":ip-address-manager"]

/-- The key of an image is that of the proxy or one of the provider's own. -/
theorem key_mem (p : Provider) (image : String) : Image.key p image ∈ proxyKey :: ownKeys p := by
  unfold Image.key
  split
  · exact List.mem_cons_self
  · simp [ownKeys]
  · simp [ownKeys]

/-- The key of the proxy is none of a provider's own: no type begins like it. -/
theorem proxyKey_not_mem (p : Provider) : proxyKey ∉ ownKeys p := by
  have hne (s : String) : proxyKey ≠ p.type.name ++ "-" ++ p.name ++ s := by
    intro h
    have hfirst := congrArg (·.toList.head?) h
    simp only [String.toList_append, List.append_assoc] at hfirst
    cases htype : p.type <;> simp [proxyKey, htype, ProviderType.name] at hfirst
  intro h
  obtain h | h := List.mem_cons.1 h
  · exact hne _ h
  · exact hne _ (List.mem_singleton.1 h)

/-- Different ends of a key are not at the end of one text. -/
theorem managerKey_ne (s t : String) : s ++ ":manager" ≠ t ++ ":ip-address-manager" := by
  intro h
  have hchars := congrArg (·.toList.reverse.take 8) h
  simp [String.toList_append] at hchars

/-- Providers that have one key for themselves have the same type and name. -/
theorem eq_of_mem_ownKeys (hp : key ∈ ownKeys p) (hq : key ∈ ownKeys q) :
    p.type = q.type ∧ p.name = q.name := by
  simp only [ownKeys, List.mem_cons, List.not_mem_nil, or_false] at hp hq
  obtain rfl | rfl := hp <;> obtain hq | hq := hq
  · exact ProviderType.append_inj (String.append_left_inj _ |>.1 hq)
  · exact absurd hq (managerKey_ne _ _)
  · exact absurd hq.symm (managerKey_ne _ _)
  · exact ProviderType.append_inj (String.append_left_inj _ |>.1 hq)

end Image

/-! ## Outcomes -/

/-- Two computations both succeed with results that are related, or both fail. -/
abbrev SameSuccess {ε α β : Type} (R : α → β → Prop) : Except ε α → Except ε β → Prop :=
  OutcomeRel (fun _ _ => True) R

/-! ## Catalogs that are handed on -/

/-- An image with another key than that of the proxy is at one of the provider's own keys. -/
theorem Image.AreKeyed.mem_ownKeys {p : Provider} {images : Fields String} (h : AreKeyed p images)
    {key image : String} (found : Fields.get? images key = some image) (hkey : key ≠ proxyKey) :
    key ∈ ownKeys p := by
  obtain ⟨e, he, rfl⟩ := List.mem_map.1 (Fields.mem_keys found)
  rw [h.key e he] at hkey ⊢
  exact (List.mem_cons.1 (key_mem p e.2)).resolve_left hkey

namespace ImageCatalog

variable {c d : ImageCatalog} {p q : Provider} {images more : Fields String}

/-- Merging images of a provider leaves the catalog but for the keys of the proxy and of the
provider. -/
theorem get?_merge_of_not_mem (h : Image.AreKeyed p images) (c : ImageCatalog) {key : String}
    (hproxy : key ≠ Image.proxyKey) (hown : key ∉ Image.ownKeys p) :
    (c.merge images).get? key = c.get? key := by
  rw [get?_merge h.nodup]
  cases hfound : Fields.get? images key with
  | none => rfl
  | some image => exact absurd (h.mem_ownKeys hfound hproxy) hown

/-- Two catalogs have the same images, except perhaps that of the proxy. -/
def SameButProxy (c d : ImageCatalog) : Prop := ∀ key ≠ Image.proxyKey, c.get? key = d.get? key

/-- The catalogs stay the same when the same images are merged. -/
theorem SameButProxy.merge (h : SameButProxy c d) (hkeys : (Fields.keys images).Nodup) :
    SameButProxy (c.merge images) (d.merge images) := by
  intro key hkey
  rw [get?_merge hkeys, get?_merge hkeys, h key hkey]

/-- Images of different providers may be merged in any order. -/
theorem SameButProxy.merge_comm (h : SameButProxy c d)
    (hpq : (p.type, p.name) ≠ (q.type, q.name)) (hp : Image.AreKeyed p images)
    (hq : Image.AreKeyed q more) :
    SameButProxy ((c.merge images).merge more) ((d.merge more).merge images) := by
  intro key hkey
  by_cases hown : key ∈ Image.ownKeys p
  · -- The key is none of the other provider, so what that one merges does not count.
    have hother : key ∉ Image.ownKeys q := fun h => hpq <| by
      obtain ⟨htype, hname⟩ := Image.eq_of_mem_ownKeys hown h
      rw [htype, hname]
    rw [get?_merge_of_not_mem hq _ hkey hother, get?_merge hp.nodup, get?_merge hp.nodup,
      get?_merge_of_not_mem hq _ hkey hother, h key hkey]
  · rw [get?_merge_of_not_mem hp _ hkey hown, get?_merge hq.nodup, get?_merge hq.nodup,
      get?_merge_of_not_mem hp _ hkey hown, h key hkey]

end ImageCatalog

/-- A release from which assets are to be made for a provider that is configured. -/
structure Job where
  /-- What the import is told about the provider. -/
  told : ProviderConfig
  /-- The provider, in the version of the release. -/
  provider : Provider
  /-- The release. -/
  release : Release

namespace Job

variable {config : Config} {j k : Job} {jobs jobs' : List Job} {c d : ImageCatalog} {a : Assets}

/-- Makes the assets. -/
def run (config : Config) (j : Job) (c : ImageCatalog) : Except Error Assets :=
  j.release.assets config j.told.exclude j.provider c

/-- Makes the assets of all jobs in order, each one with the catalog that the one before leaves. What
is left in the end is the last catalog. -/
def thread (config : Config) (jobs : List Job) (c : ImageCatalog) : Except Error ImageCatalog :=
  jobs.foldlM (fun c j => (·.catalog) <$> j.run config c) c

/-- Two jobs are for different providers. -/
def Differ (j k : Job) : Prop :=
  (j.provider.type, j.provider.name) ≠ (k.provider.type, k.provider.name)

instance (j k : Job) : Decidable (Differ j k) := inferInstanceAs (Decidable (_ ≠ _))

/-- The catalog that a job leaves has the images of the contents of its release. -/
theorem catalog_run (config : Config) (j : Job) (c : ImageCatalog) :
    (·.catalog) <$> j.run config c =
      (c.merge ·.images) <$> j.release.contents config j.told.exclude j.provider := by
  rw [run, Release.assets_eq, Functor.map_map]
  rfl

/-- A job leaves the catalog but for the keys of the proxy and of its provider. -/
theorem get?_catalog_run (h : j.run config c = .ok a) {key : String} (hproxy : key ≠ Image.proxyKey)
    (hown : key ∉ Image.ownKeys j.provider) : a.catalog.get? key = c.get? key := by
  obtain ⟨k, hk, rfl⟩ := Release.assets_eq_ok_iff.1 h
  exact ImageCatalog.get?_merge_of_not_mem (Release.areKeyed_contents hk) c hproxy hown

/-- From catalogs that are the same but for the proxy, a job leaves ones that are. -/
theorem sameSuccess_run (config : Config) (j : Job) (h : c.SameButProxy d) :
    SameSuccess ImageCatalog.SameButProxy ((·.catalog) <$> j.run config c)
      ((·.catalog) <$> j.run config d) := by
  rw [catalog_run, catalog_run]
  cases hj : j.release.contents config j.told.exclude j.provider with
  | error e => exact .error trivial
  | ok k => exact .ok (h.merge (Release.areKeyed_contents hj).nodup)

/-- So do several jobs in one order. -/
theorem sameSuccess_thread (config : Config) (jobs : List Job) (h : c.SameButProxy d) :
    SameSuccess ImageCatalog.SameButProxy (thread config jobs c) (thread config jobs d) :=
  .foldlM (List.forall₂_same.2 fun j _ _ _ => sameSuccess_run config j) h

/-- Two jobs for different providers may be done in any order. -/
theorem sameSuccess_swap (config : Config) (hdiffer : j.Differ k) (h : c.SameButProxy d) :
    SameSuccess ImageCatalog.SameButProxy
      ((·.catalog) <$> j.run config c >>= fun c => (·.catalog) <$> k.run config c)
      ((·.catalog) <$> k.run config d >>= fun d => (·.catalog) <$> j.run config d) := by
  simp only [catalog_run]
  cases hj : j.release.contents config j.told.exclude j.provider with
  | error e =>
    cases hk : k.release.contents config k.told.exclude k.provider with
    | error e' => exact .error trivial
    | ok k => exact .error trivial
  | ok _ =>
    cases hk : k.release.contents config k.told.exclude k.provider with
    | error e => exact .error trivial
    | ok _ =>
      exact .ok (h.merge_comm hdiffer (Release.areKeyed_contents hj) (Release.areKeyed_contents hk))

/-- Jobs for different providers may be done in any order. -/
theorem sameSuccess_perm (config : Config) (hperm : jobs.Perm jobs') :
    ∀ {c d : ImageCatalog}, jobs.Pairwise Differ → c.SameButProxy d →
      SameSuccess ImageCatalog.SameButProxy (thread config jobs c) (thread config jobs' d) := by
  unfold thread
  induction hperm with
  | nil => exact fun _ h => .ok h
  | cons j _ ih =>
    intro c d hdiffer h
    rw [List.foldlM_cons, List.foldlM_cons]
    exact (sameSuccess_run config j h).bind fun _ _ => ih (List.pairwise_cons.1 hdiffer).2
  | swap j k jobs =>
    intro c d hdiffer h
    have hkj : k.Differ j := (List.pairwise_cons.1 hdiffer).1 j List.mem_cons_self
    simp only [List.foldlM_cons, ← bind_assoc]
    exact (sameSuccess_swap config hkj h).bind fun _ _ => sameSuccess_thread config jobs
  | trans hperm _ ih ih' =>
    intro c d hdiffer h
    -- The order in between starts from the first catalog again.
    have hdiffer' := hdiffer.perm hperm Ne.symm
    exact (ih hdiffer fun _ _ => rfl).trans (fun _ _ _ _ _ => trivial)
      (fun _ _ _ h h' key hkey => (h key hkey).trans (h' key hkey)) (ih' hdiffer' h)

/-- When several jobs for different providers hand the catalog on, each one changes it at most at the
key of the proxy and at the two keys of its own provider, and at these no other job changes it. So in
any other order they succeed if they do in this one, and leave a catalog that is the same but for the
image of the proxy. -/
theorem thread_interferes (config : Config) (jobs : List Job) (catalog : ImageCatalog)
    (hdiffer : jobs.Pairwise Differ) :
    (∀ j ∈ jobs, ∀ c a, j.run config c = .ok a →
      ∀ key ∉ Image.proxyKey :: Image.ownKeys j.provider, a.catalog.get? key = c.get? key) ∧
    (jobs.Pairwise fun j k => ∀ c a,
      (j.run config c = .ok a → ∀ key ∈ Image.ownKeys k.provider, a.catalog.get? key = c.get? key) ∧
      (k.run config c = .ok a → ∀ key ∈ Image.ownKeys j.provider, a.catalog.get? key = c.get? key)) ∧
    ∀ jobs' : List Job, jobs.Perm jobs' →
      ((∃ d, thread config jobs catalog = .ok d) ↔ ∃ d, thread config jobs' catalog = .ok d) ∧
      ∀ d d', thread config jobs catalog = .ok d → thread config jobs' catalog = .ok d' →
        ∀ key ≠ Image.proxyKey, d.get? key = d'.get? key := by
  have others {j k : Job} (hjk : j.Differ k) {c : ImageCatalog} {a : Assets}
      (h : j.run config c = .ok a) : ∀ key ∈ Image.ownKeys k.provider, a.catalog.get? key = c.get? key := by
    intro key hkey
    refine get?_catalog_run h ?_ fun hown => hjk ?_
    · rintro rfl
      exact Image.proxyKey_not_mem _ hkey
    · obtain ⟨htype, hname⟩ := Image.eq_of_mem_ownKeys hown hkey
      rw [htype, hname]
  refine ⟨?_, ?_, ?_⟩
  · intro j _ c a h key hkey
    obtain ⟨hproxy, hown⟩ := List.ne_and_not_mem_of_not_mem_cons hkey
    exact get?_catalog_run h hproxy hown
  · exact hdiffer.imp fun hjk c a => ⟨others hjk, others (Ne.symm hjk)⟩
  · intro jobs' hperm
    have hsame := sameSuccess_perm config hperm hdiffer (c := catalog) fun _ _ => rfl
    exact ⟨hsame.exists_ok_iff, fun d d' => hsame.rel⟩

/-- A release of one deployment with the given containers. -/
def deployed (containers : String) : Release where
  metadata := []
  components := "\x7bapiVersion: apps/v1, kind: Deployment, metadata: \x7bname: d\x7d, " ++
    "spec: \x7btemplate: \x7bspec: \x7bcontainers: [" ++ containers ++ "]\x7d\x7d\x7d\x7d"

/-- A job with a manager and a proxy. -/
def firstJob : Job where
  told := ⟨"a", .core, none⟩
  provider := ⟨"a", .core, "v1"⟩
  release := deployed "\x7bname: m, image: m\x7d, \x7bname: p, image: kube-rbac-proxy:v1\x7d"

/-- A job with another proxy. The name of its provider goes on where that of the first one ends. -/
def secondJob : Job where
  told := ⟨"a:manager", .core, none⟩
  provider := ⟨"a:manager", .core, "v1"⟩
  release := deployed "\x7bname: p, image: kube-rbac-proxy:v2\x7d"

/-- The two jobs succeed in both orders. The first one adds an image at a key of its own, and the order
decides about the proxy. -/
theorem twoJobs_interfere : [firstJob, secondJob].Pairwise Differ ∧
    ∃ d d', thread .standard [firstJob, secondJob] .empty = .ok d ∧
      thread .standard [secondJob, firstJob] .empty = .ok d' ∧
      d.get? Image.proxyKey ≠ d'.get? Image.proxyKey ∧ d.get? "core-a:manager" = some "m" ∧
      ∀ key ≠ Image.proxyKey, d.get? key = d'.get? key := by
  have hdiffer : [firstJob, secondJob].Pairwise Differ := by decide
  have hfirst : ((firstJob.release.contents .standard none ⟨"a", .core, "v1"⟩).toOption.map (·.images)) =
      some [("core-a:manager", "m"), (Image.proxyKey, "kube-rbac-proxy:v1")] := by decide +kernel
  have hsecond :
      ((secondJob.release.contents .standard none ⟨"a:manager", .core, "v1"⟩).toOption.map (·.images)) =
        some [(Image.proxyKey, "kube-rbac-proxy:v2")] := by decide +kernel
  obtain ⟨k, hk, himages⟩ := exists_ok_of_toOption hfirst
  obtain ⟨l, hl, hmore⟩ := exists_ok_of_toOption hsecond
  have hrun (c : ImageCatalog) : (·.catalog) <$> firstJob.run .standard c = .ok (c.merge k.images) := by
    rw [catalog_run]
    exact congrArg _ hk
  have hrun' (c : ImageCatalog) : (·.catalog) <$> secondJob.run .standard c = .ok (c.merge l.images) := by
    rw [catalog_run]
    exact congrArg _ hl
  have hthread : thread .standard [firstJob, secondJob] .empty =
      .ok ((ImageCatalog.empty.merge k.images).merge l.images) := by
    simp only [thread, List.foldlM_cons, List.foldlM_nil, hrun, hrun']
    rfl
  have hthread' : thread .standard [secondJob, firstJob] .empty =
      .ok ((ImageCatalog.empty.merge l.images).merge k.images) := by
    simp only [thread, List.foldlM_cons, List.foldlM_nil, hrun, hrun']
    rfl
  -- Apart from the proxy, the order does not matter.
  obtain ⟨-, -, hperm⟩ := thread_interferes .standard [firstJob, secondJob] .empty hdiffer
  obtain ⟨-, hsame⟩ := hperm [secondJob, firstJob] (.swap _ _ [])
  rw [himages, hmore] at hthread hthread'
  exact ⟨hdiffer, _, _, hthread, hthread', by decide, by decide, hsame _ _ hthread hthread'⟩

end Job

end ProviderAssets
