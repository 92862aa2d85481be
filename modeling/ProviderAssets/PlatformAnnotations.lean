import ProviderAssets.Manifest.Basic

/-!
# Annotations for the platform

Roles, bindings and service accounts go into a manifest of their own. Their annotations say in which
releases of the platform they are shipped.
-/

namespace ProviderAssets

/-- Annotations to put on resources, in order. -/
abbrev Annotations := Fields String

namespace Annotations

/-- The annotations of a release. -/
def release : Annotations :=
  [("exclude.release.openshift.io/internal-openshift-hosted", "true"),
    ("include.release.openshift.io/self-managed-high-availability", "true"),
    ("include.release.openshift.io/single-node-developer", "true"),
    ("release.openshift.io/feature-set", "TechPreviewNoUpgrade")]

/-- Writes annotations over those that are there. -/
def writeOver (a : Annotations) (old : Json.Object) : Json.Object :=
  Fields.insertAll old (a.map fun (key, value) => (key, .string value))

end Annotations

/-- Puts annotations on a resource, which keeps its others only if they are to be merged. -/
def Resource.annotate (a : Annotations) (merge : Bool) (r : Resource) : Resource :=
  r.updateAnnotations fun old => a.writeOver (if merge then old else [])

/-- The resources that are no roles and accounts, and those that are, with the annotations. -/
def Manifest.splitRbac (a : Annotations) (m : Manifest) : Manifest × Manifest :=
  let (core, rbac) := m.partition (·.kind.isRbac)
  (core, rbac.map (·.annotate a false))

end ProviderAssets
