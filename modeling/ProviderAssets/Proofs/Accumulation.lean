import ProviderAssets.Proofs.Contents
import ProviderAssets.Proofs.Writing

/-!
# The image catalog over many imports

The image catalog is read and written anew for each provider. What is found on a disk is said by
functions of the disk (`Import.contentsOn`, `Import.catalogOn`), so that the assets of a provider are
the contents of its release with the catalog put in (`Import.prepare_eq_ok`). A commit writes the
catalog last, and what it writes is read by the next one (`Import.hasCatalog_commit`). `Import.history`
lists the commits of a sequence of imports, and `Import.catalog_accumulates` says what the catalog is
after each of them.
-/

namespace ProviderAssets

namespace Import

open Disk (Written lastAt)

/-! ## What is found on a disk -/

/-- A step only looks at the disk, and gives what `f` says. -/
def Looks {ε α : Type} (x : ExceptT ε (StateM Disk) α) (f : Disk → Except ε α) : Prop :=
  ∀ d, x.run d = (f d, d)

namespace Looks

variable {ε ε' α β : Type} {x : ExceptT ε (StateM Disk) α} {f : Disk → Except ε α}

/-- A sequence of steps looks at one disk. -/
protected theorem bind (hx : Looks x f) {y : α → ExceptT ε (StateM Disk) β}
    {g : α → Disk → Except ε β} (hy : ∀ a, Looks (y a) (g a)) :
    Looks (x >>= y) fun d => f d >>= fun a => g a d := by
  intro d
  show _ = (f d >>= fun a => g a d, d)
  rw [run_bind, hx d]
  cases f d with
  | error e => rfl
  | ok a => exact hy a d

end Looks

/-- What is known already is what is given. -/
theorem looks_orFail {ε α : Type} (f : ε → Failure) (r : Except ε α) :
    Looks (orFail f r) fun _ => r.mapError f := by
  cases r <;> exact fun _ => rfl

/-- A step that looks may be given another name for its failure. -/
theorem Looks.orFail {ε α β : Type} {x : ExceptT ε (StateM Disk) α} {f : Disk → Except ε α}
    (hx : Looks x f) (e : ε → Failure) {y : α → ExceptT Failure (StateM Disk) β}
    {g : α → Disk → Except Failure β} (hy : ∀ a, Looks (y a) (g a)) :
    Looks (liftM x.run >>= fun r => Import.orFail e r >>= y)
      fun d => (f d).mapError e >>= fun a => g a d := by
  intro d
  rw [run_bind, run_lift, hx d]
  exact (looks_orFail e (f d)).bind hy d

/-- A file is read. -/
theorem looks_read (p : Path) :
    Looks (read Disk.storage p) fun d => (d.read p).mapError (.read p.text) := read_run p

/-- The release that a file and another one make. -/
def releaseOf (p : Provider) (metadata components : List UInt8) : Except Error Release :=
  match Text.ofBytes? components with
  | some components => pure { metadata, components }
  | none => throw (.utf8 p.componentsFile)

/-- The release of a provider on a disk. -/
def releaseOn (releases : Path) (p : Provider) (d : Disk) : Except Error Release := do
  let dir := releaseDir releases p
  let metadata ← (d.read (dir.join "metadata.yaml")).mapError (.read (dir.join "metadata.yaml").text)
  let components ←
    (d.read (dir.join p.componentsFile)).mapError (.read (dir.join p.componentsFile).text)
  releaseOf p metadata components

/-- The catalog that is in a file, or missing. -/
def catalogOf (path : Path) : Except FileFault (List UInt8) → Except Failure ImageCatalog
  | .ok bytes => (ImageCatalog.ofBytes bytes).mapError (.parse path)
  | .error .notFound => pure .empty
  | .error fault => throw (.plain (.read path.text fault))

/-- The image catalog on a disk. A missing one is empty. -/
def catalogOn (path : Path) (d : Disk) : Except Failure ImageCatalog := catalogOf path (d.read path)

/-- A provider in the version that is asked for, and the contents of its release on a disk. -/
def contentsOn (config : Config) (releases : Path) (versions : VersionCatalog) (c : ProviderConfig)
    (d : Disk) : Except Failure (Provider × Release.Contents) := do
  let version ← (versions.versionOf c.name).mapError .plain
  let p := c.provider version
  let release ← (releaseOn releases p d).mapError (.fetch p.manifestLabel version)
  let contents ← (release.contents config c.exclude p).mapError (.provider p.name)
  return (p, contents)

/-- The assets of a provider that are made from a disk. -/
def assetsOn (config : Config) (releases root : Path) (versions : VersionCatalog) (c : ProviderConfig)
    (d : Disk) : Except Failure Assets := do
  let version ← (versions.versionOf c.name).mapError .plain
  let p := c.provider version
  let release ← (releaseOn releases p d).mapError (.fetch p.manifestLabel version)
  let catalog ← catalogOn (root.join config.imageCatalog.text) d
  (release.assets config c.exclude p catalog).mapError (.provider p.name)

variable {config : Config} {releases root path : Path} {versions : VersionCatalog}
  {c : ProviderConfig} {cs : List ProviderConfig} {d d' : Disk} {a : Assets} {p : Provider}
  {k : Release.Contents} {catalog : ImageCatalog}

/-- A release is fetched from the disk. -/
theorem looks_fetch (releases : Path) (p : Provider) :
    Looks (fetch Disk.storage releases p) (releaseOn releases p) := by
  refine (looks_read _).bind fun metadata => (looks_read _).bind fun components => ?_
  unfold releaseOf
  cases Text.ofBytes? components <;> exact fun _ => rfl

/-- The catalog is loaded from the disk. -/
theorem looks_loadCatalog (path : Path) :
    Looks (loadCatalog Disk.storage path) (catalogOn path) := by
  intro d
  unfold loadCatalog
  rw [run_bind, run_lift]
  have hread : Disk.storage.read path d = (d.read path, d) := rfl
  rw [hread]
  unfold catalogOn
  dsimp only
  cases d.read path with
  | ok bytes => exact looks_orFail _ _ d
  | error fault => cases fault <;> rfl

/-- Making the assets of a provider looks at the disk. -/
theorem looks_prepare (config : Config) (releases root : Path) (versions : VersionCatalog)
    (c : ProviderConfig) : Looks (prepare Disk.storage config releases root versions c)
      (assetsOn config releases root versions c) := by
  refine (looks_orFail _ _).bind fun version => ?_
  refine (looks_fetch releases _).orFail _ fun release => ?_
  exact (looks_loadCatalog _).bind fun catalog => looks_orFail _ _

/-- The assets of a provider are made of the contents of its release and the catalog on the disk. -/
theorem prepare_eq_ok :
    (prepare Disk.storage config releases root versions c).run d = (.ok a, d') ↔
      d' = d ∧ ∃ p k catalog, contentsOn config releases versions c d = .ok (p, k) ∧
        catalogOn (root.join config.imageCatalog.text) d = .ok catalog ∧
        k.assets config p catalog = a := by
  rw [looks_prepare, Prod.mk.injEq, and_comm, eq_comm (a := d)]
  refine and_congr_right fun _ => ?_
  unfold assetsOn contentsOn
  simp only [bind_eq_ok, mapError_eq_ok, Release.assets_eq_ok_iff]
  constructor
  · rintro ⟨version, hversion, release, hrelease, catalog, hcatalog, k, hk, ha⟩
    exact ⟨_, k, catalog, ⟨version, hversion, release, hrelease, k, hk, rfl⟩, hcatalog, ha⟩
  · rintro ⟨p, k, catalog, ⟨version, hversion, release, hrelease, k', hk, h⟩, hcatalog, ha⟩
    cases h
    exact ⟨version, hversion, release, hrelease, catalog, hcatalog, k, hk, ha⟩

/-- The images of the contents are at their keys. -/
theorem areKeyed_contentsOn (h : contentsOn config releases versions c d = .ok (p, k)) :
    Image.AreKeyed p k.images := by
  obtain ⟨version, -, h⟩ := bind_eq_ok.1 h
  obtain ⟨release, -, h⟩ := bind_eq_ok.1 h
  obtain ⟨contents, hcontents, h⟩ := bind_eq_ok.1 h
  cases h
  exact Release.areKeyed_contents (mapError_eq_ok.1 hcontents)

/-! ## One commit -/

/-- There is a file at the path from which a catalog is read. -/
def HasCatalog (path : Path) (d : Disk) (catalog : ImageCatalog) : Prop :=
  ∃ bytes, d.read path = .ok bytes ∧ ImageCatalog.ofBytes bytes = .ok catalog

/-- A catalog that is on a disk is found there. -/
theorem HasCatalog.catalogOn_eq (h : HasCatalog path d catalog) : catalogOn path d = .ok catalog := by
  obtain ⟨bytes, hread, hbytes⟩ := h
  rw [catalogOn, hread, catalogOf, hbytes]
  rfl

/-- The catalog is the last file that is written for a provider, and is read from it. -/
theorem hasCatalog_of_writeFiles {package : Package} {rbac : Manifest}
    (h : d.writeFiles root (Release.files config p package rbac catalog) = .ok d') :
    HasCatalog (root.join config.imageCatalog.text) d' catalog := by
  have written := Disk.written_of_writeFiles h
  let file : OutputFile := ⟨config.imageCatalog, catalog.text⟩
  have hmem : file ∈ Release.files config p package rbac catalog := by
    simp [file, Release.files]
  have hlast : lastAt root (Release.files config p package rbac catalog) (file.location root) =
      some file := by
    simp [lastAt, Release.files, file]
  have hreaches := written.reaches file hmem
  have hentry := (written.last _ file hlast).at?_eq hreaches.ne_nil
  refine ⟨_, hreaches.read d' _ (.refl d') hentry, ImageCatalog.ofBytes_text catalog⟩

/-- The import of a provider that succeeds merges the images of the contents of its release into the
catalog. -/
theorem hasCatalog_commit (hstart : catalogOn (root.join config.imageCatalog.text) d = .ok catalog)
    (hk : contentsOn config releases versions c d = .ok (p, k))
    (made : (prepare Disk.storage config releases root versions c).run d = (.ok a, d))
    (written : d.writeFiles root a.files = .ok d') :
    HasCatalog (root.join config.imageCatalog.text) d' (catalog.merge k.images) := by
  obtain ⟨-, q, l, start, hl, hstart', rfl⟩ := prepare_eq_ok.1 made
  rw [hk] at hl
  rw [hstart] at hstart'
  cases hl
  cases hstart'
  exact hasCatalog_of_writeFiles written

/-! ## Many commits -/

/-- What an import commits for a provider. -/
structure Commit where
  /-- The provider. -/
  provider : ProviderConfig
  /-- The images of its components by their keys. -/
  images : Fields String
  /-- The disk that has its files. -/
  disk : Disk

/-- What an import is called with. -/
structure Call where
  /-- Where the published releases are. -/
  releases : Path
  /-- The name of the only provider to import, if one is given. -/
  only : Option String

/-- The commits when providers are imported one after the other, up to the first failure. -/
def commits (config : Config) (releases root : Path) (versions : VersionCatalog) :
    List ProviderConfig → Disk → List Commit
  | [], _ => []
  | c :: cs, d =>
    match contentsOn config releases versions c d,
      (importProvider Disk.storage config releases root versions c).run d with
    | .ok (_, k), (.ok _, d') => ⟨c, k.images, d'⟩ :: commits config releases root versions cs d'
    | _, _ => []

/-- The commits of an import. -/
def Call.commits (config : Config) (root : Path) (call : Call) (d : Disk) : List Commit :=
  match versionsOn config root d with
  | .ok versions =>
    Import.commits config call.releases root versions (config.selected call.only) d
  | .error _ => []

/-- What an import ends with, and the disk that it leaves. -/
def Call.run (config : Config) (root : Path) (call : Call) (d : Disk) :
    Except Failure (List Assets) × Disk :=
  (Import.run Disk.storage config call.releases root call.only).run d

/-- What the imports of a sequence end with, each one on the disk that the one before leaves. -/
def outcomes (config : Config) (root : Path) : List Call → Disk →
    List (Except Failure (List Assets) × Disk)
  | [], _ => []
  | call :: calls, d =>
    call.run config root d :: outcomes config root calls (call.run config root d).2

/-- The disk that a sequence of imports leaves. -/
def finalDisk (config : Config) (root : Path) (calls : List Call) (d : Disk) : Disk :=
  calls.foldl (fun d call => (call.run config root d).2) d

/-- All commits of a sequence of imports, in order. -/
def history (config : Config) (root : Path) : List Call → Disk → List Commit
  | [], _ => []
  | call :: calls, d =>
    call.commits config root d ++ history config root calls (call.run config root d).2

/-- The image at a key after some commits: that of the last one which has one there, or else that of
the catalog from before. -/
def imageAfter (catalog : ImageCatalog) (ks : List Commit) (key : String) : Option String :=
  (ks.reverse.findSome? fun k => Fields.get? k.images key).or (catalog.get? key)

/-- After each commit the catalog is on the disk, with the images of the commit merged into it. -/
def Accumulates (path : Path) : ImageCatalog → List Commit → Prop
  | _, [] => True
  | catalog, k :: ks => (Fields.keys k.images).Nodup ∧
    HasCatalog path k.disk (catalog.merge k.images) ∧
      Accumulates path (catalog.merge k.images) ks

/-- The catalog after some commits. -/
def catalogAfter (catalog : ImageCatalog) (ks : List Commit) : ImageCatalog :=
  catalog.mergeAll (ks.map (·.images))

/-- The disk after some commits. -/
def diskAfter (d : Disk) (ks : List Commit) : Disk := (ks.getLast?.map (·.disk)).getD d

variable {ks ls : List Commit} {call : Call} {calls : List Call}

/-- Commits accumulate if the first ones do, and then the others. -/
theorem accumulates_append : Accumulates path catalog (ks ++ ls) ↔
    Accumulates path catalog ks ∧ Accumulates path (catalogAfter catalog ks) ls := by
  induction ks generalizing catalog with
  | nil => exact ⟨fun h => ⟨trivial, h⟩, And.right⟩
  | cons k ks ih =>
    simp only [List.cons_append, Accumulates, ih, and_assoc]
    rfl

/-- The disk after some commits and then others. -/
theorem diskAfter_append (d : Disk) (ks ls : List Commit) :
    diskAfter d (ks ++ ls) = diskAfter (diskAfter d ks) ls := by
  unfold diskAfter
  rw [List.getLast?_append]
  cases ls.getLast? <;> rfl

/-- The disk after a commit and then others. -/
theorem diskAfter_cons (d : Disk) (k : Commit) (ks : List Commit) :
    diskAfter d (k :: ks) = diskAfter k.disk ks := diskAfter_append d [k] ks

/-- The catalog on the disk after some commits. -/
theorem Accumulates.catalogOn_eq (h : Accumulates path catalog ks)
    (hstart : catalogOn path d = .ok catalog) :
    catalogOn path (diskAfter d ks) = .ok (catalogAfter catalog ks) := by
  induction ks generalizing catalog d with
  | nil => exact hstart
  | cons k ks ih =>
    obtain ⟨-, hcatalog, h⟩ := h
    rw [diskAfter_cons]
    exact ih h hcatalog.catalogOn_eq

/-- No release has two images at one key. -/
theorem Accumulates.nodup_keys (h : Accumulates path catalog ks) :
    ∀ k ∈ ks, (Fields.keys k.images).Nodup := by
  induction ks generalizing catalog with
  | nil => exact fun _ hk => by cases hk
  | cons k ks ih =>
    obtain ⟨hkeys, -, h⟩ := h
    exact List.forall_mem_cons.2 ⟨hkeys, ih h⟩

/-- The images of the catalog after some commits. -/
theorem Accumulates.get?_eq (h : Accumulates path catalog ks) (key : String) :
    (catalogAfter catalog ks).get? key = imageAfter catalog ks key := by
  have hkeys : ∀ images ∈ ks.map (·.images), (Fields.keys images).Nodup :=
    List.forall_mem_map.2 h.nodup_keys
  rw [catalogAfter, ImageCatalog.get?_mergeAll hkeys, imageAfter, ← List.map_reverse,
    List.findSome?_map]
  rfl

/-- After a provider that is committed, the others are imported to the disk that has its files: they
decide about the disk at the end and about failure. -/
theorem mapM_run_of_ok {versions : VersionCatalog} {c : ProviderConfig} {a : Assets} {d' : Disk}
    (hrun : (importProvider Disk.storage config releases root versions c).run d = (.ok a, d'))
    (cs : List ProviderConfig) :
    (((c :: cs).mapM (importProvider Disk.storage config releases root versions)).run d).2 =
        ((cs.mapM (importProvider Disk.storage config releases root versions)).run d').2 ∧
      ∀ f, ((cs.mapM (importProvider Disk.storage config releases root versions)).run d').1 = .error f →
        (((c :: cs).mapM (importProvider Disk.storage config releases root versions)).run d).1 =
          .error f := by
  rw [List.mapM_cons, run_bind, hrun]
  dsimp only
  rw [run_bind]
  generalize (cs.mapM (importProvider Disk.storage config releases root versions)).run d' = out
  obtain ⟨_ | _, _⟩ := out
  · exact ⟨rfl, fun _ h => h⟩
  · exact ⟨rfl, fun _ h => by cases h⟩

/-- The commits of providers that are imported one after the other accumulate, and the disk is the one
after them. -/
theorem accumulates_commits (cs : List ProviderConfig) :
    ∀ {d : Disk} {catalog : ImageCatalog},
      catalogOn (root.join config.imageCatalog.text) d = .ok catalog →
      (∀ f, ((cs.mapM (importProvider Disk.storage config releases root versions)).run d).1 =
        .error f → f.isOfWriting = false) →
      Accumulates (root.join config.imageCatalog.text) catalog
          (commits config releases root versions cs d) ∧
        ((cs.mapM (importProvider Disk.storage config releases root versions)).run d).2 =
          diskAfter d (commits config releases root versions cs d) := by
  induction cs with
  | nil => exact fun _ _ => ⟨trivial, rfl⟩
  | cons c cs ih =>
    intro d catalog hstart hends
    obtain ⟨a, d', hrun, made, written⟩ | ⟨f, d', hrun, hf⟩ :=
      importProvider_run config releases root versions c d
    · obtain ⟨-, p, k, -, hk, -⟩ := prepare_eq_ok.1 made
      have hcommits : commits config releases root versions (c :: cs) d =
          ⟨c, k.images, d'⟩ :: commits config releases root versions cs d' := by
        rw [commits, hk, hrun]
      have hcatalog := hasCatalog_commit hstart hk made written
      obtain ⟨hlast, hfails⟩ := mapM_run_of_ok hrun cs
      obtain ⟨haccumulates, hdisk⟩ := ih hcatalog.catalogOn_eq fun f hf => hends f (hfails f hf)
      rw [hcommits, hlast, hdisk, diskAfter_cons]
      exact ⟨⟨(areKeyed_contentsOn hk).nodup, hcatalog, haccumulates⟩, rfl⟩
    · -- The provider is the first one that fails, so nothing is committed from here on.
      have hcommits : commits config releases root versions (c :: cs) d = [] := by
        rw [commits, hrun]
        cases contentsOn config releases versions c d <;> rfl
      rw [List.mapM_cons, run_bind, hrun] at hends ⊢
      rw [hcommits]
      obtain hf | ⟨rfl, -⟩ := hf
      · rw [hends f rfl] at hf
        cases hf
      · exact ⟨trivial, rfl⟩

/-- The commits of an import accumulate, and the disk is the one after them. -/
theorem accumulates_call (hstart : catalogOn (root.join config.imageCatalog.text) d = .ok catalog)
    (hends : ∀ f, (call.run config root d).1 = .error f → f.isOfWriting = false) :
    Accumulates (root.join config.imageCatalog.text) catalog (call.commits config root d) ∧
      (call.run config root d).2 = diskAfter d (call.commits config root d) := by
  unfold Call.run Call.commits at *
  rw [run_eq] at hends ⊢
  by_cases hnone : config.selected call.only = []
  · rw [if_pos hnone, hnone]
    cases versionsOn config root d <;> exact ⟨trivial, rfl⟩
  rw [if_neg hnone] at hends ⊢
  cases hversions : versionsOn config root d with
  | error f => exact ⟨trivial, rfl⟩
  | ok versions =>
    rw [hversions] at hends
    exact accumulates_commits _ hstart hends

/-- The commits of a sequence of imports accumulate, and the disk is the one after them. -/
theorem accumulates_history (hstart : catalogOn (root.join config.imageCatalog.text) d = .ok catalog)
    (hends : ∀ out ∈ outcomes config root calls d, ∀ f, out.1 = .error f → f.isOfWriting = false) :
    Accumulates (root.join config.imageCatalog.text) catalog (history config root calls d) ∧
      finalDisk config root calls d = diskAfter d (history config root calls d) := by
  induction calls generalizing d catalog with
  | nil => exact ⟨trivial, rfl⟩
  | cons call calls ih =>
    obtain ⟨hfirst, hothers⟩ := List.forall_mem_cons.1 hends
    obtain ⟨haccumulates, hdisk⟩ := accumulates_call hstart hfirst
    have hnext := haccumulates.catalogOn_eq hstart
    rw [← hdisk] at hnext
    obtain ⟨hmore, hlast⟩ := ih hnext hothers
    refine ⟨accumulates_append.2 ⟨haccumulates, hmore⟩, ?_⟩
    have hfinal : finalDisk config root (call :: calls) d =
        finalDisk config root calls (call.run config root d).2 := rfl
    rw [hfinal, hlast, history, diskAfter_append, hdisk]

/-- A commit among others leaves the catalog with the images of the commits up to it. -/
theorem Accumulates.hasCatalog {before after : List Commit} {k : Commit}
    (h : Accumulates path catalog (before ++ k :: after)) :
    ∃ c, HasCatalog path k.disk c ∧ ∀ key, c.get? key = imageAfter catalog (before ++ [k]) key := by
  rw [List.append_cons, accumulates_append] at h
  obtain ⟨hfirst, -⟩ := h
  obtain ⟨-, -, hcatalog, -⟩ := accumulates_append.1 hfirst
  have hafter : catalogAfter catalog (before ++ [k]) = (catalogAfter catalog before).merge k.images := by
    rw [catalogAfter, List.map_append, ImageCatalog.mergeAll, List.foldl_append]
    rfl
  exact ⟨_, hcatalog, fun key => by rw [← hafter, hfirst.get?_eq]⟩

/-- There is one catalog on a disk. -/
theorem HasCatalog.unique {c e : ImageCatalog} (hc : HasCatalog path d c) (he : HasCatalog path d e) :
    c = e :=
  Except.ok.inj (hc.catalogOn_eq.symm.trans he.catalogOn_eq)

/-- No key is lost by more commits. -/
theorem isSome_imageAfter_append {key : String} (h : (imageAfter catalog ks key).isSome = true)
    (ls : List Commit) : (imageAfter catalog (ks ++ ls) key).isSome = true := by
  have happend : imageAfter catalog (ks ++ ls) key =
      (ls.reverse.findSome? fun k => Fields.get? k.images key).or (imageAfter catalog ks key) := by
    rw [imageAfter, imageAfter, List.reverse_append, List.findSome?_append, Option.or_assoc]
  rw [happend, Option.isSome_or, h, Bool.or_true]

/-- In a sequence of imports none of which ends in a failure of writing, each commit leaves a catalog on
the disk that has, at each key, the image of the last commit up to it which has one there, and else the
image from before; and so does the whole sequence, if it commits anything. A key that is in the catalog
at the start or after a commit is in it after each later commit. -/
theorem catalog_accumulates (config : Config) (root : Path) (calls : List Call) (d : Disk)
    (catalog : ImageCatalog)
    (hstart : catalogOn (root.join config.imageCatalog.text) d = .ok catalog)
    (hends : ∀ out ∈ outcomes config root calls d, ∀ f, out.1 = .error f → f.isOfWriting = false) :
    (∀ before k after, history config root calls d = before ++ k :: after →
      ∃ c, HasCatalog (root.join config.imageCatalog.text) k.disk c ∧
        ∀ key, c.get? key = imageAfter catalog (before ++ [k]) key) ∧
    (history config root calls d ≠ [] →
      ∃ c, HasCatalog (root.join config.imageCatalog.text) (finalDisk config root calls d) c ∧
        ∀ key, c.get? key = imageAfter catalog (history config root calls d) key) ∧
    (∀ before k between l after,
      history config root calls d = before ++ k :: (between ++ l :: after) →
      ∀ c e, HasCatalog (root.join config.imageCatalog.text) k.disk c →
        HasCatalog (root.join config.imageCatalog.text) l.disk e →
          ∀ key, (c.get? key).isSome = true → (e.get? key).isSome = true) ∧
    (∀ before k after, history config root calls d = before ++ k :: after →
      ∀ c, HasCatalog (root.join config.imageCatalog.text) k.disk c →
        ∀ key, (catalog.get? key).isSome = true → (c.get? key).isSome = true) := by
  obtain ⟨haccumulates, hfinal⟩ := accumulates_history hstart hends
  refine ⟨?_, ?_, ?_, ?_⟩
  -- A commit in the middle: the history up to it accumulates as well.
  · intro before k after h
    exact (h ▸ haccumulates).hasCatalog
  -- The end: what the last commit left is there still.
  · intro hsome
    obtain ⟨before, k, h⟩ := List.eq_nil_or_concat _ |>.resolve_left hsome
    rw [List.concat_eq_append] at h
    rw [hfinal, h, diskAfter_append]
    exact (h ▸ haccumulates : Accumulates _ _ (before ++ [k])).hasCatalog
  · intro before k between l after h c e hc he key hkey
    obtain ⟨c', hc', hk⟩ := (h ▸ haccumulates).hasCatalog
    have hlater : Accumulates (root.join config.imageCatalog.text) catalog
        ((before ++ k :: between) ++ l :: after) := by
      rw [List.append_assoc, List.cons_append]
      exact h ▸ haccumulates
    obtain ⟨e', he', hl⟩ := hlater.hasCatalog
    -- The later catalog looks the key up in the same commits, after others.
    rw [hc.unique hc', hk] at hkey
    rw [he.unique he', hl, List.append_cons before k between, List.append_assoc]
    exact isSome_imageAfter_append hkey _
  · intro before k after h c hc key hkey
    obtain ⟨c', hc', hk⟩ := (h ▸ haccumulates).hasCatalog
    rw [hc.unique hc', hk]
    exact @isSome_imageAfter_append catalog [] key hkey _

/-- The disk with the release of one provider, and with a catalog. -/
def oneReleaseAndCatalog : Disk :=
  ⟨oneRelease.entries ++
    [(["sample-images.json"], .file "\x7b\"core-b:manager\": \"i\"\x7d".toUTF8.toList)]⟩

/-- A provider is imported twice, and a provider that is not configured is not imported in between. The
catalog keeps the image that another provider has in it. -/
theorem catalog_oneRelease :
    let calls : List Call :=
      [⟨⟨"mirror"⟩, some "metal3"⟩, ⟨⟨"mirror"⟩, some "gcp"⟩, ⟨⟨"mirror"⟩, some "metal3"⟩]
    (history twoProviders ⟨""⟩ calls oneReleaseAndCatalog).length = 2 ∧
      ∃ c, HasCatalog ⟨"sample-images.json"⟩
        (finalDisk twoProviders ⟨""⟩ calls oneReleaseAndCatalog) c ∧
          c.get? "core-b:manager" = some "i" := by
  intro calls
  have hstart : (catalogOn ⟨"sample-images.json"⟩ oneReleaseAndCatalog).toOption.map
      (·.get? "core-b:manager") = some (some "i") := by decide +kernel
  obtain ⟨catalog, hstart, hget⟩ := exists_ok_of_toOption hstart
  have hruns : (outcomes twoProviders ⟨""⟩ calls oneReleaseAndCatalog).all (fun out =>
        match out.1 with
        | .error f => !f.isOfWriting
        | .ok _ => true) = true ∧
      (history twoProviders ⟨""⟩ calls oneReleaseAndCatalog).map (·.images) = [[], []] := by
    decide +kernel
  obtain ⟨hends, hhistory⟩ := hruns
  have hends (out) (hout : out ∈ outcomes twoProviders ⟨""⟩ calls oneReleaseAndCatalog) (f)
      (hf : out.1 = .error f) : f.isOfWriting = false := by
    have hall := List.all_eq_true.1 hends out hout
    rw [hf] at hall
    simpa using hall
  obtain ⟨-, hfinal, -, -⟩ :=
    catalog_accumulates twoProviders ⟨""⟩ calls oneReleaseAndCatalog catalog hstart hends
  generalize history twoProviders ⟨""⟩ calls oneReleaseAndCatalog = ks at hhistory hfinal ⊢
  obtain ⟨k, ks, rfl, hk, hks⟩ := List.map_eq_cons_iff.1 hhistory
  obtain ⟨l, ks, rfl, hl, hks⟩ := List.map_eq_cons_iff.1 hks
  obtain rfl := List.map_eq_nil_iff.1 hks
  obtain ⟨c, hc, himages⟩ := hfinal (List.cons_ne_nil k [l])
  refine ⟨rfl, c, hc, ?_⟩
  rw [himages, imageAfter]
  simp [hk, hl, hget, Fields.get?]

end Import

end ProviderAssets
