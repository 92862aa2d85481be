import ProviderAssets.Error
import ProviderAssets.Resource.Basic
import ProviderAssets.Yaml.Object
import ProviderAssets.Yaml.Printer

/-!
# Resources as documents

Reading a resource from a document, either from a value or in place, and writing one.
-/

namespace ProviderAssets.Resource

/-- The mismatch of an object that is no resource. -/
def mismatchOf (fault : ResourceFault) : Mismatch := .custom fault.message

/-- The mismatch of a document that is no object. -/
def notObject (message : String) : Mismatch := .custom ("parsing resource: " ++ message)

/-- The resource that a value describes. -/
def ofValue (v : Yaml.Value) : Except Mismatch Resource := do
  let o ← v.toObject.mapError fun m => notObject (m.message .general)
  (ofObject o).mapError mismatchOf

/-- Reads a resource in place. -/
def decoder : Yaml.Decoder Resource := fun p n => do
  let o ← tryCatch (Yaml.Decode.object p n) fun e => Yaml.Decode.mismatch (notObject e.message)
  match ofObject o with
  | .ok r => return r
  | .error fault => Yaml.Decode.mismatch (mismatchOf fault)

/-- The resource that is the only document of a text. -/
def ofDocuments (documents : List Yaml.Document) : Except Error Resource :=
  decoder.read documents

/-- The document of a resource. -/
def render (r : Resource) : String := Yaml.render (.object r.toObject)

end ProviderAssets.Resource
