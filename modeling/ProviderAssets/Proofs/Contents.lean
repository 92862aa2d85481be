import ProviderAssets.Proofs.Catalog
import ProviderAssets.Proofs.Stages

/-!
# Assets without a catalog

The image catalog takes part in an import only at its end: what is made of a release before that are
its `Release.Contents`, and the assets are the contents with the catalog put in
(`Release.assets_eq`). So whether assets can be made does not depend on the catalog, and neither do
the files of the components, of the record and of roles and accounts, or the counts
(`Release.assets_catalog`). The new catalog is the old one with the images of the contents.
-/

namespace ProviderAssets

/-- The assets but for the catalog: the files of the components, of the record and of roles and accounts,
and the counts. -/
def Assets.withoutCatalog (a : Assets) : List OutputFile × Nat × Nat × Nat :=
  (a.files.take 3, a.components, a.rbac, a.dropped)

namespace Release

/-- What is made of a release, whatever the catalog. -/
structure Contents where
  /-- All resources that were read. -/
  all : Manifest
  /-- The components, as they are shipped. -/
  components : Manifest
  /-- The roles and accounts, as they are shipped. -/
  rbac : Manifest
  /-- The images of the components by their keys. -/
  images : Fields String
  /-- What the provider is installed from. -/
  package : Package

/-- Makes the contents of a release. -/
def contents (config : Config) (exclude : Option Exclusion) (p : Provider) (release : Release) :
    Except Error Contents := do
  let all ← Manifest.ofText release.components
  let (components, rbac) ← stages config exclude p all
  let images ← components.images p
  let package ← Package.make components p config.targetNamespace release.metadata
  return { all, components, rbac, images, package }

/-- The assets that are made of the contents and a catalog. -/
def Contents.assets (config : Config) (p : Provider) (k : Contents) (catalog : ImageCatalog) :
    Assets where
  files := files config p k.package k.rbac (catalog.merge k.images)
  catalog := catalog.merge k.images
  components := k.components.size
  rbac := k.rbac.size
  dropped := k.all.size - k.components.size - k.rbac.size

/-- The paths of the three files of a provider. -/
def ownPaths (config : Config) (p : Provider) : List Path :=
  [config.providersDir.join p.configMapFile, config.providersDir.join p.recordFile,
    config.manifestsDir.join p.rbacFile]

/-- The paths of all files that are written for a provider. -/
def paths (config : Config) (p : Provider) : List Path := ownPaths config p ++ [config.imageCatalog]

variable {config : Config} {exclude : Option Exclusion} {p : Provider} {release : Release}
  {catalog : ImageCatalog} {a : Assets} {k : Contents}

/-- The assets are the contents with the catalog put in. -/
theorem assets_eq (config : Config) (exclude : Option Exclusion) (p : Provider) (release : Release)
    (catalog : ImageCatalog) : release.assets config exclude p catalog =
      (·.assets config p catalog) <$> release.contents config exclude p := by
  unfold assets contents
  simp only [map_bind, map_pure, Contents.assets]

/-- Assets are made of contents. -/
theorem assets_eq_ok_iff : release.assets config exclude p catalog = .ok a ↔
    ∃ k, release.contents config exclude p = .ok k ∧ k.assets config p catalog = a := by
  rw [assets_eq, map_eq_ok]

/-- The paths of the files do not depend on the catalog. -/
theorem Contents.map_path_files (config : Config) (p : Provider) (k : Contents)
    (catalog : ImageCatalog) : (k.assets config p catalog).files.map (·.path) = paths config p := by
  simp only [assets, files, paths, ownPaths, List.map_cons, List.map_nil, List.cons_append,
    List.nil_append]

/-- Only the catalog and its file depend on the catalog. -/
theorem Contents.withoutCatalog_assets (config : Config) (p : Provider) (k : Contents)
    (catalog other : ImageCatalog) :
    (k.assets config p catalog).withoutCatalog = (k.assets config p other).withoutCatalog := by
  simp only [Assets.withoutCatalog, assets, files, List.take_succ_cons, List.take_zero]

/-- Whether assets can be made does not depend on the catalog, and of the assets only the catalog and
its file do. -/
theorem assets_catalog (config : Config) (exclude : Option Exclusion) (p : Provider)
    (release : Release) (catalog other : ImageCatalog) :
    (·.withoutCatalog) <$> release.assets config exclude p catalog =
      (·.withoutCatalog) <$> release.assets config exclude p other := by
  rw [assets_eq, assets_eq]
  cases release.contents config exclude p with
  | error e =>
    show Except.error e = Except.error e
    rfl
  | ok k => exact congrArg Except.ok (k.withoutCatalog_assets config p catalog other)

/-- The images of the contents are at their keys. -/
theorem areKeyed_contents (h : release.contents config exclude p = .ok k) :
    Image.AreKeyed p k.images := by
  obtain ⟨all, -, h⟩ := bind_eq_ok.1 h
  obtain ⟨⟨components, rbac⟩, -, h⟩ := bind_eq_ok.1 h
  obtain ⟨images, himages, h⟩ := bind_eq_ok.1 h
  obtain ⟨package, -, h⟩ := bind_eq_ok.1 h
  cases h
  exact Image.areKeyed_images himages

end Release

end ProviderAssets
