import ProviderAssets.Proofs.Accumulation

/-!
# Importing again

An import that is made again on the disk that it left finds the same releases there
(`Import.contentsOn_of_spares`) and can write all its files in place (`Import.Rewritable`). It does not
go through the same disks as before, since its first provider finds the images of the last one in the
catalog; only at the end is the catalog the same (`ImageCatalog.mergeAll_mergeAll`). So two runs are
compared by the file that comes last at each location (`Import.lastAt_assetsInTurn`), and
`Import.run_again` says that the disk is as it was.
-/

namespace ProviderAssets

namespace Import

open Disk (Spares Written Reaches lastAt)

/-! ## What an import reads -/

/-- The files of a published release. -/
def releaseFiles (releases : Path) (p : Provider) : List Path :=
  [(releaseDir releases p).join "metadata.yaml", (releaseDir releases p).join p.componentsFile]

/-- The files that are published for a provider, if there is a version of it. -/
def published (releases : Path) (versions : VersionCatalog) (c : ProviderConfig) : List Path :=
  match versions.versionOf c.name with
  | .ok version => releaseFiles releases (c.provider version)
  | .error _ => []

/-- What an import reads, apart from the image catalog: the version catalog, and what is published for
the selected providers. -/
def sources (config : Config) (releases root : Path) (only : Option String) (d : Disk) : List Path :=
  root.join config.versionCatalog.text ::
    match versionsOn config root d with
    | .ok versions => (config.selected only).flatMap (published releases versions)
    | .error _ => []

variable {config : Config} {releases root : Path} {versions : VersionCatalog} {c : ProviderConfig}
  {cs : List ProviderConfig} {d d' e : Disk} {as : List Assets} {p : Provider} {k : Release.Contents}
  {catalog : ImageCatalog} {touched : Location → Prop} {paths : List Path} {files : List OutputFile}

/-- A release that is spared is fetched as before. -/
theorem releaseOn_of_spares {release : Release} (h : Spares touched d e)
    (hfree : ∀ path ∈ releaseFiles releases p, ¬ touched (Disk.location path))
    (hrelease : releaseOn releases p d = .ok release) : releaseOn releases p e = .ok release := by
  obtain ⟨hmetadata, hcomponents, -⟩ := List.forall_mem_cons.1 hfree |>.imp_right
    List.forall_mem_cons.1
  obtain ⟨metadata, hread, hrelease⟩ := bind_eq_ok.1 hrelease
  obtain ⟨components, hread', hrelease⟩ := bind_eq_ok.1 hrelease
  have hread := h.read_eq hmetadata (mapError_eq_ok.1 hread)
  have hread' := h.read_eq hcomponents (mapError_eq_ok.1 hread')
  exact bind_eq_ok.2 ⟨metadata, mapError_eq_ok.2 hread,
    bind_eq_ok.2 ⟨components, mapError_eq_ok.2 hread', hrelease⟩⟩

/-- The contents of a release that is spared are made as before. -/
theorem contentsOn_of_spares (h : Spares touched d e)
    (hfree : ∀ path ∈ published releases versions c, ¬ touched (Disk.location path))
    (hk : contentsOn config releases versions c d = .ok (p, k)) :
    contentsOn config releases versions c e = .ok (p, k) := by
  obtain ⟨version, hversion, hk⟩ := bind_eq_ok.1 hk
  obtain ⟨release, hrelease, hk⟩ := bind_eq_ok.1 hk
  rw [published, mapError_eq_ok.1 hversion] at hfree
  have hrelease := releaseOn_of_spares h hfree (mapError_eq_ok.1 hrelease)
  exact bind_eq_ok.2 ⟨version, hversion, bind_eq_ok.2 ⟨release, mapError_eq_ok.2 hrelease, hk⟩⟩

/-- A version catalog that is spared is read as before. -/
theorem versionsOn_of_spares (h : Spares touched d e)
    (hfree : ¬ touched (Disk.location (root.join config.versionCatalog.text)))
    (hversions : versionsOn config root d = .ok versions) : versionsOn config root e = .ok versions := by
  obtain ⟨bytes, hread, hversions⟩ := bind_eq_ok.1 hversions
  have hread := h.read_eq hfree (mapError_eq_ok.1 hread)
  exact bind_eq_ok.2 ⟨bytes, mapError_eq_ok.2 hread, hversions⟩

/-! ## Assets one after the other -/

/-- The assets that are made of the contents of several releases, each one with the catalog of the one
before. -/
def assetsInTurn (config : Config) : ImageCatalog → List (Provider × Release.Contents) → List Assets
  | _, [] => []
  | catalog, (p, k) :: made =>
    k.assets config p catalog :: assetsInTurn config (catalog.merge k.images) made

variable {made : List (Provider × Release.Contents)}

/-- The contents of the releases, as they are found on a disk. -/
abbrev Found (config : Config) (releases : Path) (versions : VersionCatalog) (d : Disk) :
    List ProviderConfig → List (Provider × Release.Contents) → Prop :=
  List.Forall₂ fun c m => contentsOn config releases versions c d = .ok m

/-- The assets of an import are made in turn, of the contents that are found on the disk at its end. The
catalog at the end has all their images. -/
theorem Imports.exists_found (h : Imports config releases root versions d cs as d')
    (hfree : ∀ c ∈ cs, ∀ path ∈ published releases versions c,
      ∀ f ∈ as.flatMap (·.files), f.location root ≠ Disk.location path)
    (hstart : catalogOn (root.join config.imageCatalog.text) d = .ok catalog) :
    ∃ made, Found config releases versions d' cs made ∧ as = assetsInTurn config catalog made ∧
      catalogOn (root.join config.imageCatalog.text) d' =
        .ok (catalog.mergeAll (made.map (·.2.images))) := by
  induction h generalizing catalog with
  | nil => exact ⟨[], .nil, rfl, hstart⟩
  | @cons d d₁ d' c cs a as made written more ih =>
    have hspares := (Disk.written_of_writeFiles (Imports.cons made written more).writeFiles).spares
    obtain ⟨-, p, k, start, hk, hstart', rfl⟩ := prepare_eq_ok.1 made
    rw [hstart] at hstart'
    cases hstart'
    obtain ⟨hfirst, hothers⟩ := List.forall_mem_cons.1 hfree
    have hnext := (hasCatalog_commit hstart hk made written).catalogOn_eq
    obtain ⟨others, hfound, rfl, hcatalog⟩ := ih (fun c hc path hpath f hf =>
      hothers c hc path hpath f (List.mem_append_right _ hf)) hnext
    have hfound' := contentsOn_of_spares hspares (fun path hpath ⟨f, hf, hlocation⟩ =>
      hfirst path hpath f hf hlocation) hk
    exact ⟨(p, k) :: others, .cons hfound' hfound, rfl, hcatalog⟩

/-- No release that is found has two images at one key. -/
theorem Found.nodup_keys (h : Found config releases versions d cs made) :
    ∀ images ∈ made.map (·.2.images), (Fields.keys images).Nodup := by
  induction h with
  | nil => exact fun _ h => by cases h
  | cons hk _ ih => exact List.forall_mem_cons.2 ⟨(areKeyed_contentsOn hk).nodup, ih⟩

/-- The catalog is the last file of a provider. -/
theorem lastAt_assets (config : Config) (p : Provider) (k : Release.Contents) (catalog : ImageCatalog) :
    lastAt root (k.assets config p catalog).files (Disk.location (root.join config.imageCatalog.text)) =
      some ⟨config.imageCatalog, (catalog.merge k.images).text⟩ := by
  simp [lastAt, Release.Contents.assets, Release.files, OutputFile.location]

/-- Where the catalog does not go, the last file of a provider does not depend on it. -/
theorem lastAt_assets_of_ne {location : Location}
    (h : Disk.location (root.join config.imageCatalog.text) ≠ location) (p : Provider)
    (k : Release.Contents) (catalog other : ImageCatalog) :
    lastAt root (k.assets config p catalog).files location =
      lastAt root (k.assets config p other).files location := by
  simp [lastAt, Release.Contents.assets, Release.files, OutputFile.location, h]

/-- Where the catalog goes there is at the end the catalog with all images. Elsewhere the file that comes
last does not depend on the catalog from before. -/
theorem lastAt_assetsInTurn (other : ImageCatalog) (location : Location) :
    lastAt root ((assetsInTurn config catalog made).flatMap (·.files)) location =
      if Disk.location (root.join config.imageCatalog.text) = location ∧ made ≠ [] then
        some ⟨config.imageCatalog, (catalog.mergeAll (made.map (·.2.images))).text⟩
      else lastAt root ((assetsInTurn config other made).flatMap (·.files)) location := by
  induction made generalizing catalog other with
  | nil => simp [assetsInTurn]
  | cons m made ih =>
    obtain ⟨p, k⟩ := m
    have hmerge : catalog.mergeAll (((p, k) :: made).map (·.2.images)) =
        (catalog.merge k.images).mergeAll (made.map (·.2.images)) := rfl
    rw [assetsInTurn, assetsInTurn, List.flatMap_cons, List.flatMap_cons, Disk.lastAt_append,
      Disk.lastAt_append, hmerge, ih (other.merge k.images)]
    by_cases hlocation : Disk.location (root.join config.imageCatalog.text) = location
    · by_cases hnone : made = []
      · rw [if_neg (fun h => h.2 hnone), if_pos ⟨hlocation, List.cons_ne_nil _ _⟩, hnone, ← hlocation,
          lastAt_assets]
        rfl
      · rw [if_pos ⟨hlocation, hnone⟩, if_pos ⟨hlocation, List.cons_ne_nil _ _⟩, Option.some_or]
    · rw [if_neg (fun h => hlocation h.1), if_neg (fun h => hlocation h.1),
        lastAt_assets_of_ne hlocation p k catalog other]

/-- From a catalog that has all images, the files that come last are made as from the catalog from
before. -/
theorem lastAt_again (h : ∀ images ∈ made.map (·.2.images), (Fields.keys images).Nodup)
    (location : Location) :
    lastAt root ((assetsInTurn config (catalog.mergeAll (made.map (·.2.images))) made).flatMap
        (·.files)) location =
      lastAt root ((assetsInTurn config catalog made).flatMap (·.files)) location := by
  rw [lastAt_assetsInTurn catalog, ImageCatalog.mergeAll_mergeAll h, ← lastAt_assetsInTurn catalog]

/-! ## Writing in place of what was written -/

/-- The second disk is the first one but at the locations of some paths, where it has files that can be
written again. -/
structure Rewritable (root : Path) (paths : List Path) (d e : Disk) : Prop where
  /-- Elsewhere there is what was there. -/
  spares : Spares (fun l => ∃ path ∈ paths, Disk.location (root.join path.text) = l) d e
  /-- The paths lead to their locations. -/
  reaches : ∀ path ∈ paths, Reaches root path e
  /-- There are files. -/
  filled : ∀ path ∈ paths, ∃ bytes, e.at? (Disk.location (root.join path.text)) = some (.file bytes)

/-- The files that were written can be written again. -/
theorem rewritable_of_written (h : Written root files d d') :
    Rewritable root (files.map (·.path)) d' d' where
  spares := .refl _ d'
  reaches := List.forall_mem_map.2 h.reaches
  filled := by
    refine List.forall_mem_map.2 fun f hf => ?_
    cases hlast : lastAt root files (f.location root) with
    | none => exact absurd rfl (Disk.lastAt_eq_none.1 hlast f hf)
    | some g => exact ⟨_, (h.last _ g hlast).at?_eq (h.reaches f hf).ne_nil⟩

/-- Files that can be written again are written in place, and then they can be written again. -/
theorem Rewritable.writeFiles (h : Rewritable root paths d e) (hpaths : ∀ f ∈ files, f.path ∈ paths) :
    e.writeFiles root files = .ok (e.replaceAll root files) ∧
      Rewritable root paths d (e.replaceAll root files) := by
  have hwrite : e.writeFiles root files = .ok (e.replaceAll root files) :=
    Disk.writeFiles_again (fun f hf => h.reaches _ (hpaths f hf)) (.refl e)
      fun f hf => h.filled _ (hpaths f hf)
  have written := Disk.written_of_writeFiles hwrite
  refine ⟨hwrite, h.spares.trans (written.spares.mono ?_), fun path hpath =>
    (h.reaches path hpath).mono written.spares.dirs, fun path hpath => ?_⟩
  · rintro l ⟨f, hf, hlocation⟩
    exact ⟨f.path, hpaths f hf, hlocation⟩
  · have hne := (h.reaches path hpath).ne_nil
    cases hlast : lastAt root files (Disk.location (root.join path.text)) with
    | some f => exact ⟨_, (written.last _ f hlast).at?_eq hne⟩
    | none =>
      have hfree : ¬ Disk.Takes root files (Disk.location (root.join path.text)) := by
        rintro ⟨f, hf, hlocation⟩
        exact Disk.lastAt_eq_none.1 hlast f hf hlocation
      obtain ⟨bytes, hbytes⟩ := h.filled path hpath
      have hsome : e.entriesAt (Disk.location (root.join path.text)) ≠ [] := by
        intro hnone
        rw [(Disk.at?_eq_none hne).2 hnone] at hbytes
        cases hbytes
      refine ⟨bytes, ?_⟩
      rw [Disk.at?_eq_head? hne, written.spares.kept _ hfree hsome, ← Disk.at?_eq_head? hne, hbytes]

/-- Providers whose files can be written again are imported in place, from what is found on the first
disk and the catalog on the second one. -/
theorem imports_again (hfound : Found config releases versions d cs made)
    (hfree : ∀ c ∈ cs, ∀ source ∈ published releases versions c, ∀ path ∈ paths,
      Disk.location (root.join path.text) ≠ Disk.location source)
    (hpaths : ∀ m ∈ made, ∀ path ∈ Release.paths config m.1, path ∈ paths)
    (hready : Rewritable root paths d e)
    (hstart : catalogOn (root.join config.imageCatalog.text) e = .ok catalog) :
    Imports config releases root versions e cs (assetsInTurn config catalog made)
      (e.replaceAll root ((assetsInTurn config catalog made).flatMap (·.files))) := by
  induction hfound generalizing e catalog with
  | nil => exact .nil e
  | @cons c m cs made hk _ ih =>
    obtain ⟨p, k⟩ := m
    obtain ⟨hfirst, hothers⟩ := List.forall_mem_cons.1 hfree
    obtain ⟨hpath, hpaths⟩ := List.forall_mem_cons.1 hpaths
    -- What is read of the release is not among the paths that were written.
    have hk : contentsOn config releases versions c e = .ok (p, k) :=
      contentsOn_of_spares hready.spares (fun source hsource ⟨path, hpath, hlocation⟩ =>
        hfirst source hsource path hpath hlocation) hk
    have hprepare : (prepare Disk.storage config releases root versions c).run e =
        (.ok (k.assets config p catalog), e) :=
      prepare_eq_ok.2 ⟨rfl, p, k, catalog, hk, hstart, rfl⟩
    have hown : ∀ f ∈ (k.assets config p catalog).files, f.path ∈ paths := by
      rw [← Release.Contents.map_path_files config p k catalog] at hpath
      exact List.forall_mem_map.1 hpath
    obtain ⟨hwrite, hnext⟩ := hready.writeFiles hown
    have hcatalog := (hasCatalog_commit hstart hk hprepare hwrite).catalogOn_eq
    -- The other providers go on from the disk and the catalog that the first one leaves.
    have hreplace : e.replaceAll root ((assetsInTurn config catalog ((p, k) :: made)).flatMap (·.files)) =
        (e.replaceAll root (k.assets config p catalog).files).replaceAll root
          ((assetsInTurn config (catalog.merge k.images) made).flatMap (·.files)) := by
      rw [assetsInTurn, List.flatMap_cons, Disk.replaceAll, List.foldl_append]
      rfl
    rw [hreplace]
    exact .cons hprepare hwrite (ih hothers hpaths hnext hcatalog)

/-- If all providers can be imported, a run of the imports does it. -/
theorem Imports.mapM_run (h : Imports config releases root versions d cs as d') :
    (cs.mapM (importProvider Disk.storage config releases root versions)).run d = (.ok as, d') := by
  induction h with
  | nil => rfl
  | @cons d d₁ d' c cs a as made written more ih =>
    have hcommit := writes_commit root a.files d
    rw [written] at hcommit
    have hfirst : (importProvider Disk.storage config releases root versions c).run d = (.ok a, d₁) := by
      unfold importProvider
      rw [run_bind, made]
      dsimp only
      rw [run_bind, hcommit]
      rfl
    rw [List.mapM_cons, run_bind, hfirst]
    dsimp only
    rw [run_bind, ih]
    rfl

/-- An import finds a catalog, or there is none. -/
theorem Imports.exists_catalog (h : Imports config releases root versions d cs as d') (hne : cs ≠ []) :
    ∃ catalog, catalogOn (root.join config.imageCatalog.text) d = .ok catalog := by
  cases h with
  | nil => exact absurd rfl hne
  | cons made written more =>
    obtain ⟨-, p, k, catalog, -, hcatalog, -⟩ := prepare_eq_ok.1 made
    exact ⟨catalog, hcatalog⟩

/-- The paths of the assets are those of their providers. -/
theorem map_path_assetsInTurn (catalog : ImageCatalog) (made : List (Provider × Release.Contents)) :
    ((assetsInTurn config catalog made).flatMap (·.files)).map (·.path) =
      made.flatMap fun m => Release.paths config m.1 := by
  induction made generalizing catalog with
  | nil => rfl
  | cons m made ih =>
    rw [assetsInTurn, List.flatMap_cons, List.flatMap_cons, List.map_append, ih,
      Release.Contents.map_path_files]

/-- An import that succeeded without writing over what it read succeeds again, and leaves the disk as it
is. Of the assets of a provider, only the catalog and its file depend on the catalog. -/
theorem run_again (config : Config) (releases root : Path) (only : Option String) (d d' : Disk)
    (as : List Assets)
    (hrun : (run Disk.storage config releases root only).run d = (.ok as, d'))
    (hsources : ∀ f ∈ as.flatMap (·.files), ∀ source ∈ sources config releases root only d,
      f.location root ≠ Disk.location source) :
    (∃ bs, (run Disk.storage config releases root only).run d' = (.ok bs, d')) ∧
    ∀ (exclude : Option Exclusion) (p : Provider) (release : Release) (catalog other : ImageCatalog),
      (·.withoutCatalog) <$> release.assets config exclude p catalog =
        (·.withoutCatalog) <$> release.assets config exclude p other := by
  refine ⟨?_, Release.assets_catalog config⟩
  obtain ⟨hlength, hwrite, -, versions, hversions, himports⟩ :=
    (run_commits config releases root only d).1 as d' hrun
  have hne : config.selected only ≠ [] := by
    intro hnone
    rw [run_eq, if_pos hnone] at hrun
    cases hrun
  have written := Disk.written_of_writeFiles hwrite
  have hready := rewritable_of_written written
  have hversions' : versionsOn config root d' = .ok versions :=
    versionsOn_of_spares written.spares (fun ⟨f, hf, hlocation⟩ =>
      hsources f hf _ List.mem_cons_self hlocation) hversions
  have hfree : ∀ c ∈ config.selected only, ∀ source ∈ published releases versions c,
      ∀ f ∈ as.flatMap (·.files), f.location root ≠ Disk.location source := by
    intro c hc source hsource f hf
    refine hsources f hf source (List.mem_cons_of_mem _ ?_)
    rw [hversions]
    exact List.mem_flatMap.2 ⟨c, hc, hsource⟩
  obtain ⟨catalog, hstart⟩ := himports.exists_catalog hne
  obtain ⟨made, hfound, rfl, hcatalog⟩ := himports.exists_found hfree hstart
  -- The second run starts with the catalog that the first one ended with.
  rw [map_path_assetsInTurn] at hready
  have hagain := imports_again hfound (fun c hc source hsource path hpath => ?_)
    (fun m hm path hpath => List.mem_flatMap.2 ⟨m, hm, hpath⟩) hready hcatalog
  · have hsame : d'.replaceAll root ((assetsInTurn config
        (catalog.mergeAll (made.map (·.2.images))) made).flatMap (·.files)) = d' := by
      refine Disk.replaceAll_eq_self fun l f hf => written.last l f ?_
      rw [← hf, lastAt_again hfound.nodup_keys]
    rw [hsame] at hagain
    refine ⟨assetsInTurn config (catalog.mergeAll (made.map (·.2.images))) made, ?_⟩
    rw [run_eq, if_neg hne, hversions']
    exact hagain.mapM_run
  · rw [← map_path_assetsInTurn catalog] at hpath
    obtain ⟨f, hf, rfl⟩ := List.mem_map.1 hpath
    exact hfree c hc source hsource f hf

/-- The release of a provider is imported twice. The first import adds files to the disk, and the second
one leaves it. -/
theorem oneRelease_again :
    ∃ d', d' ≠ oneRelease ∧ (∃ as, (run Disk.storage twoProviders ⟨"mirror"⟩ ⟨""⟩ (some "metal3")).run
        oneRelease = (.ok as, d')) ∧
      ∃ bs, (run Disk.storage twoProviders ⟨"mirror"⟩ ⟨""⟩ (some "metal3")).run d' = (.ok bs, d') := by
  have hruns : ((run Disk.storage twoProviders ⟨"mirror"⟩ ⟨""⟩ (some "metal3")).run
        oneRelease).1.toOption.map (fun as => (as.flatMap (·.files)).all fun f =>
          (sources twoProviders ⟨"mirror"⟩ ⟨""⟩ (some "metal3") oneRelease).all fun source =>
            decide (f.location ⟨""⟩ ≠ Disk.location source)) = some true ∧
      ((run Disk.storage twoProviders ⟨"mirror"⟩ ⟨""⟩ (some "metal3")).run
        oneRelease).2.entries.length ≠ oneRelease.entries.length := by decide +kernel
  obtain ⟨hone, hchanged⟩ := hruns
  have hagain := run_again twoProviders ⟨"mirror"⟩ ⟨""⟩ (some "metal3") oneRelease
  generalize (run Disk.storage twoProviders ⟨"mirror"⟩ ⟨""⟩ (some "metal3")).run oneRelease = out
    at hone hchanged hagain ⊢
  obtain ⟨f | as, d'⟩ := out
  · cases hone
  have hsources (f : OutputFile) (hf : f ∈ as.flatMap (·.files)) (source : Path)
      (hsource : source ∈ sources twoProviders ⟨"mirror"⟩ ⟨""⟩ (some "metal3") oneRelease) :
      f.location ⟨""⟩ ≠ Disk.location source :=
    of_decide_eq_true (List.all_eq_true.1 (List.all_eq_true.1 (Option.some.inj hone) f hf) source hsource)
  obtain ⟨hbs, -⟩ := hagain d' as rfl hsources
  exact ⟨d', fun h => hchanged (by rw [h]), ⟨as, rfl⟩, hbs⟩

end Import

end ProviderAssets
