import ProviderAssets.Json.Value
import ProviderAssets.Kind
import ProviderAssets.Resource.Identity
import ProviderAssets.Text.Cut

/-!
# Resources

A resource is an identity with an object of any shape. The object holds all fields but `apiVersion`
and `kind`, which the identity tells; name and namespace are in the identity and in the metadata.
-/

namespace ProviderAssets

namespace Json.Object

/-- The object in a field, if there is one. -/
def sub? (o : Object) (key : String) : Option Object := (Fields.get? o key).bind Value.object?

/-- The text in a field, if there is one. -/
def text? (o : Object) (key : String) : Option String := (Fields.get? o key).bind Value.string?

/-- Changes the object in a field. Where there is none it is made from the empty one. -/
def updateSub (o : Object) (key : String) (f : Object → Object) : Object :=
  Fields.insert o key (.object (f ((sub? o key).getD [])))

/-- Changes the object in a field, if there is one. -/
def modifySub (o : Object) (key : String) (f : Object → Object) : Object :=
  match sub? o key with
  | some s => Fields.insert o key (.object (f s))
  | none => o

end Json.Object

open Json (Object)

/-- A resource. -/
structure Resource where
  /-- What the resource is and what it is called. -/
  id : ResourceId
  /-- All fields but those for the version and the kind. -/
  root : Object
  deriving DecidableEq

/-- Why an object is no resource. -/
inductive ResourceFault where
  | missingField (name : String)
  | notString (name : String)
  | missingMetadata
  | missingName
  deriving DecidableEq

/-- The wording of a fault. -/
def ResourceFault.message : ResourceFault → String
  | missingField name => "parsing resource: missing field " ++ Text.ticked name
  | notString name => "parsing resource: " ++ Text.ticked name ++ " must be a string"
  | missingMetadata => "parsing resource: missing object \x60metadata\x60"
  | missingName => "parsing resource: missing string \x60metadata.name\x60"

namespace Resource

/-- The kind of a resource. -/
def kind (r : Resource) : Kind := Kind.ofName r.id.gvk.kind

/-- The name of a resource. -/
def name (r : Resource) : String := r.id.name

/-- The metadata, if they are an object. -/
def metadata? (r : Resource) : Option Object := Json.Object.sub? r.root "metadata"

/-- The annotations, if they are an object. -/
def annotations? (r : Resource) : Option Object :=
  r.metadata?.bind (Json.Object.sub? · "annotations")

/-- The labels, if they are an object. -/
def labels? (r : Resource) : Option Object := r.metadata?.bind (Json.Object.sub? · "labels")

/-- Changes the metadata. Anything but an object counts as no metadata. -/
def updateMetadata (r : Resource) (f : Object → Object) : Resource :=
  { r with root := Json.Object.updateSub r.root "metadata" f }

/-- Changes the annotations, which are made if there are none. -/
def updateAnnotations (r : Resource) (f : Object → Object) : Resource :=
  r.updateMetadata (Json.Object.updateSub · "annotations" f)

/-- Changes the annotations if there are any. -/
def modifyAnnotations (r : Resource) (f : Object → Object) : Resource :=
  r.updateMetadata (Json.Object.modifySub · "annotations" f)

/-- Changes the labels, which are made if there are none. -/
def updateLabels (r : Resource) (f : Object → Object) : Resource :=
  r.updateMetadata (Json.Object.updateSub · "labels" f)

/-- Changes the labels if there are any. -/
def modifyLabels (r : Resource) (f : Object → Object) : Resource :=
  r.updateMetadata (Json.Object.modifySub · "labels" f)

/-- The metadata with a namespace, or with none. -/
def withNamespace (ns : Option String) (metadata : Object) : Object :=
  match ns with
  | some ns => Fields.insert metadata "namespace" (.string ns)
  | none => Fields.erase metadata "namespace"

/-- Moves a resource into a namespace, or out of any. This changes its identity. -/
def setNamespace (r : Resource) (ns : Option String) : Resource :=
  let r := r.updateMetadata (withNamespace ns)
  { r with id.ns := ns }

/-- The resource with the given identity and the fields of an object. The metadata are made to say
what the identity says. -/
def ofId (id : ResourceId) (fields : Object) : Resource :=
  let root := Fields.erase (Fields.erase fields "apiVersion") "kind"
  let r : Resource := { id, root }
  r.updateMetadata fun m =>
    withNamespace id.ns (Fields.insert m "name" (.string id.name))

/-- The text in a field that a resource must have. -/
def requiredText (o : Object) (key : String) : Except ResourceFault String :=
  match Fields.get? o key with
  | some (.string s) => pure s
  | some _ => throw (.notString key)
  | none => throw (.missingField key)

/-- Group and version of an `apiVersion`. -/
def splitApiVersion (s : String) : String × String := (Text.splitFirst '/' s).getD ("", s)

/-- The resource that an object describes. An empty namespace counts as none. -/
def ofObject (o : Object) : Except ResourceFault Resource := do
  let apiVersion ← requiredText o "apiVersion"
  let kind ← requiredText o "kind"
  let some metadata := Json.Object.sub? o "metadata" | throw .missingMetadata
  let some name := Json.Object.text? metadata "name" | throw .missingName
  let ns := (Json.Object.text? metadata "namespace").filter (!·.isEmpty)
  let (group, version) := splitApiVersion apiVersion
  return ofId { gvk := { group, version, kind }, name, ns } o

/-- The object that describes a resource. -/
def toObject (r : Resource) : Object :=
  ("apiVersion", .string r.id.gvk.apiVersion) :: ("kind", .string r.id.gvk.kind) :: r.root

end Resource

end ProviderAssets
