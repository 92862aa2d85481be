import ProviderAssets.Exclusion
import ProviderAssets.Path
import ProviderAssets.PlatformAnnotations
import ProviderAssets.Provider

/-!
# Configuration

What an import is told: which providers to import, the namespace that everything goes to, and the
paths of what is read and written. Paths are relative to the directory of the assets.
-/

namespace ProviderAssets

open Yaml (Decode Decoder)

/-- Reads a type of provider. -/
def ProviderType.decoder : Decoder ProviderType := fun p n => do
  let name ← Decode.word (ProviderType.all.map ProviderType.name) p n
  match ProviderType.ofName? name with
  | some t => return t
  | none => Decode.mismatch (.unknownVariant name (ProviderType.all.map ProviderType.name))

/-- What an import is told about a provider. -/
structure ProviderConfig where
  /-- The name, without the type. -/
  name : String
  /-- What the provider provides. -/
  type : ProviderType
  /-- Which of its resources are left out. -/
  exclude : Option Exclusion

namespace ProviderConfig

/-- The provider in the given version. -/
def provider (c : ProviderConfig) (version : String) : Provider :=
  { name := c.name, type := c.type, version }

/-- The fields met so far. -/
structure Parts where
  /-- The name, once it is known. -/
  name : Option String := none
  /-- The type, once it is known. -/
  type : Option ProviderType := none
  /-- The exclusion, which may be given as none. -/
  exclude : Option (Option Exclusion) := none

/-- Reads the value of a field. -/
def setField (field : String) (p : Yaml.Place) (n : Yaml.Node) (parts : Parts) : Decode Parts := do
  if field = "name" then return { parts with name := ← Decode.string p n }
  else if field = "type" then return { parts with type := ← ProviderType.decoder p n }
  else return { parts with exclude := ← Decode.option Exclusion.decoder p n }

/-- Reads what an import is told about a provider. -/
def decoder : Decoder ProviderConfig :=
  Decode.mapping "struct ProviderConfig" fun p entries => do
    let parts ← Decode.fields ["name", "type", "exclude"] .refused setField p [] entries {}
    return {
      name := ← Decode.required "name" parts.name
      type := ← Decode.required "type" parts.type
      exclude := parts.exclude.join }

end ProviderConfig

/-- What an import is told. -/
structure Config where
  /-- The namespace that everything is moved to. -/
  targetNamespace : String
  /-- The directory of the assets of all providers. -/
  providersDir : Path
  /-- The directory of the manifests of roles and accounts. -/
  manifestsDir : Path
  /-- The file of the image catalog. -/
  imageCatalog : Path
  /-- The file of the version catalog. -/
  versionCatalog : Path
  /-- The annotations of roles and accounts, if others than the standard ones are wanted. -/
  platformAnnotations : Option Annotations
  /-- The providers to import, in order. -/
  providers : List ProviderConfig

namespace Config

/-- The annotations for roles and accounts: those of a release unless others are given. -/
def annotations (c : Config) : Annotations := c.platformAnnotations.getD Annotations.release

/-- The providers to import: all of them, or only those with the given name. -/
def selected (c : Config) (only : Option String) : List ProviderConfig :=
  c.providers.filter fun p => only.all (· = p.name)

/-- The configuration that is used when none is given. -/
def standard : Config where
  targetNamespace := "openshift-cluster-api"
  providersDir := ⟨"assets/providers"⟩
  manifestsDir := ⟨"manifests"⟩
  imageCatalog := ⟨"sample-images.json"⟩
  versionCatalog := ⟨"provider-versions.json"⟩
  platformAnnotations := some Annotations.release
  providers :=
    [⟨"cluster-api", .core, none⟩, ⟨"aws", .infrastructure, none⟩,
      ⟨"azure", .infrastructure, none⟩, ⟨"metal3", .infrastructure, some (.contains "ipam")⟩,
      ⟨"gcp", .infrastructure, none⟩, ⟨"openstack", .infrastructure, none⟩]

/-- The fields met so far. -/
structure Parts where
  /-- The namespace that everything is moved to. -/
  targetNamespace : Option String := none
  /-- The directory of the assets of all providers. -/
  providersDir : Option Path := none
  /-- The directory of the manifests of roles and accounts. -/
  manifestsDir : Option Path := none
  /-- The file of the image catalog. -/
  imageCatalog : Option Path := none
  /-- The file of the version catalog. -/
  versionCatalog : Option Path := none
  /-- The annotations of roles and accounts. -/
  platformAnnotations : Option Annotations := none
  /-- The providers to import, in order. -/
  providers : Option (List ProviderConfig) := none

/-- The names of the fields. -/
def fieldNames : List String :=
  ["targetNamespace", "providersDir", "manifestsDir", "imageCatalog", "versionCatalog",
    "platformAnnotations", "providers"]

/-- Reads a path. -/
def pathDecoder : Decoder Path := fun p n => Path.mk <$> Decode.stringAs "path string" p n

/-- Reads the value of a field. -/
def setField (field : String) (p : Yaml.Place) (n : Yaml.Node) (parts : Parts) : Decode Parts := do
  if field = "targetNamespace" then
    return { parts with targetNamespace := ← Decode.string p n }
  else if field = "providersDir" then return { parts with providersDir := ← pathDecoder p n }
  else if field = "manifestsDir" then return { parts with manifestsDir := ← pathDecoder p n }
  else if field = "imageCatalog" then return { parts with imageCatalog := ← pathDecoder p n }
  else if field = "versionCatalog" then return { parts with versionCatalog := ← pathDecoder p n }
  else if field = "platformAnnotations" then
    let pairs ← Decode.option Decode.stringMap p n
    return { parts with platformAnnotations := pairs.map Fields.ofPairs }
  else return { parts with providers := ← Decode.list ProviderConfig.decoder p n }

/-- Reads a configuration. -/
def decoder : Decoder Config :=
  Decode.mapping "struct Config" fun p entries => do
    let parts ← Decode.fields fieldNames .refused setField p [] entries {}
    return {
      targetNamespace := ← Decode.required "targetNamespace" parts.targetNamespace
      providersDir := ← Decode.required "providersDir" parts.providersDir
      manifestsDir := ← Decode.required "manifestsDir" parts.manifestsDir
      imageCatalog := ← Decode.required "imageCatalog" parts.imageCatalog
      versionCatalog := ← Decode.required "versionCatalog" parts.versionCatalog
      platformAnnotations := parts.platformAnnotations
      providers := ← Decode.required "providers" parts.providers }

/-- The configuration that documents describe. -/
def ofDocuments (documents : List Yaml.Document) : Except Error Config :=
  decoder.read documents

end Config

end ProviderAssets
