import ProviderAssets.Manifest.Basic
import ProviderAssets.Resource.Yaml
import ProviderAssets.Yaml.Document

/-!
# Manifests as text

A manifest is written as a stream of documents, one for each resource. Reading leaves out documents
that are null.
-/

namespace ProviderAssets.Manifest

/-- The resource that a document describes; none if the document is null. -/
def resourceOf (d : Yaml.Document) : Except Error (Option Resource) := do
  let v ← ((Yaml.Value.decoder .anyValue).readDocument d).mapError .yaml
  if v.isNull then return none
  let r ← (Resource.ofValue v).mapError fun m => .yaml (.mismatch m none)
  return some r

/-- The manifest of the resources that documents describe. -/
def ofDocuments (documents : List Yaml.Document) : Except Error Manifest :=
  collect resourceOf documents

/-- The manifest that a text describes. -/
def ofText (s : String) : Except Error Manifest := ofDocuments (Yaml.documents s)

/-- The text of a manifest, without a newline at its end. -/
def render (m : Manifest) : String :=
  Text.joinWith "\n---\n" (m.resources.map fun r => Text.trimNewlines r.render)

end ProviderAssets.Manifest
