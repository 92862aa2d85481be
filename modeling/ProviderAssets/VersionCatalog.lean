import ProviderAssets.Error
import ProviderAssets.SortedFields

/-!
# Version catalogs

The version of each provider that is to be imported.
-/

namespace ProviderAssets

/-- A map from the names of providers to versions. -/
structure VersionCatalog where
  /-- The versions by the names of their providers. -/
  versions : SortedFields
  deriving DecidableEq

namespace VersionCatalog

/-- Reads a catalog from the bytes of its file. -/
def ofBytes (bytes : List UInt8) : Except Error VersionCatalog := do
  let fields ← (Json.readFields bytes).mapError .json
  return ⟨.ofPairs fields⟩

/-- The version of a provider. An empty one counts as none. -/
def versionOf (c : VersionCatalog) (provider : String) : Except Error String :=
  match (c.versions.get? provider).filter (!·.isEmpty) with
  | some version => pure version
  | none => throw (.missingVersion provider)

end VersionCatalog

end ProviderAssets
