import ProviderAssets.PlatformAnnotations

/-!
# Edits of a resource

The ways in which a resource is changed in place.
-/

namespace ProviderAssets

/-- A change of a resource. Where labels or annotations are missing, `make` says whether they are
made; otherwise they stay missing. -/
inductive Edit where
  | setLabel (key value : String) (make : Bool)
  | annotateKey (key value : String) (make : Bool)
  | unannotateKey (key : String) (make : Bool)
  | clearAnnotations (make : Bool)
  | annotate (a : Annotations) (merge : Bool)
  | setNamespace (ns : Option String)
  | dropMetadata

namespace Resource

/-- Changes the annotations. -/
def editAnnotations (make : Bool) (f : Json.Object → Json.Object) (r : Resource) : Resource :=
  if make then r.updateAnnotations f else r.modifyAnnotations f

/-- Changes the labels. -/
def editLabels (make : Bool) (f : Json.Object → Json.Object) (r : Resource) : Resource :=
  if make then r.updateLabels f else r.modifyLabels f

/-- Changes a resource. -/
def edit (r : Resource) : Edit → Resource
  | .setLabel key value make => r.editLabels make (Fields.insert · key (.string value))
  | .annotateKey key value make => r.editAnnotations make (Fields.insert · key (.string value))
  | .unannotateKey key make => r.editAnnotations make (Fields.erase · key)
  | .clearAnnotations make => r.editAnnotations make fun _ => []
  | .annotate a merge => r.annotate a merge
  | .setNamespace ns => r.setNamespace ns
  | .dropMetadata => { r with root := Fields.erase r.root "metadata" }

end Resource

end ProviderAssets
