import ProviderAssets.Config
import ProviderAssets.Image
import ProviderAssets.ImageCatalog
import ProviderAssets.Labels
import ProviderAssets.Package
import ProviderAssets.Relocation
import ProviderAssets.ServingCertificate.Platform

/-!
# From a release to its assets

The release of a provider is a stream of components with metadata. `Release.assets` makes of it the
files that the platform ships. The components go through one stage after the other: they are moved
to the target namespace, labelled, and given the certificates of the platform; then roles and
accounts are split off, and excluded resources are left out of the rest.
-/

namespace ProviderAssets

/-- What a provider publishes of a version. -/
structure Release where
  /-- The bytes that describe the versions of the provider. -/
  metadata : List UInt8
  /-- The stream of the resources. -/
  components : String

/-- A file to be written. -/
structure OutputFile where
  /-- The path in the directory of the assets. -/
  path : Path
  /-- The text of the file. -/
  contents : String
  deriving DecidableEq

/-- What is made of a release. -/
structure Assets where
  /-- The files, in the order in which they are written. -/
  files : List OutputFile
  /-- The new image catalog. -/
  catalog : ImageCatalog
  /-- How many resources there are in the components. -/
  components : Nat
  /-- How many there are among roles and accounts. -/
  rbac : Nat
  /-- How many were left out. -/
  dropped : Nat
  deriving DecidableEq

namespace Release

/-- All resources of a release as the platform wants them. -/
def prepare (config : Config) (p : Provider) (m : Manifest) : Except Error Manifest := do
  let m ← m.relocate config.targetNamespace
  (m.label p).withPlatformCertificates

/-- The components that are shipped, and the roles and accounts. -/
def divide (config : Config) (exclude : Option Exclusion) (m : Manifest) : Manifest × Manifest :=
  let (core, rbac) := m.splitRbac config.annotations
  ((exclude.map core.exclude).getD core, rbac)

/-- The components and the roles and accounts that are made of the resources of a release. -/
def stages (config : Config) (exclude : Option Exclusion) (p : Provider) (m : Manifest) :
    Except Error (Manifest × Manifest) := do
  return divide config exclude (← prepare config p m)

/-- The files of a provider. -/
def files (config : Config) (p : Provider) (package : Package) (rbac : Manifest)
    (catalog : ImageCatalog) : List OutputFile :=
  [⟨config.providersDir.join p.configMapFile, package.configMap.render⟩,
    ⟨config.providersDir.join p.recordFile, package.record.render⟩,
    ⟨config.manifestsDir.join p.rbacFile, rbac.renderRbac⟩,
    ⟨config.imageCatalog, catalog.text⟩]

/-- The assets of a release. Its images are added to the catalog. -/
def assets (config : Config) (exclude : Option Exclusion) (p : Provider) (release : Release)
    (catalog : ImageCatalog) : Except Error Assets := do
  let all ← Manifest.ofText release.components
  let (components, rbac) ← stages config exclude p all
  let catalog := catalog.merge (← components.images p)
  let package ← Package.make components p config.targetNamespace release.metadata
  return {
    files := files config p package rbac catalog
    catalog
    components := components.size
    rbac := rbac.size
    dropped := all.size - components.size - rbac.size }

end Release

end ProviderAssets
