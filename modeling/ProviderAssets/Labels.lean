import ProviderAssets.Manifest.Basic
import ProviderAssets.Provider

/-!
# Labels of a provider

Every resource of an installed provider has a label that says which provider it belongs to, and one
that says that it was installed as part of a provider.
-/

namespace ProviderAssets

namespace Label

/-- Says which provider a resource belongs to. -/
def provider : String := "cluster.x-k8s.io/provider"

/-- Says that a resource was installed as part of a provider. -/
def installed : String := "clusterctl.cluster.x-k8s.io"

end Label

/-- Puts the labels of a provider on a resource. -/
def Resource.label (p : Provider) (r : Resource) : Resource :=
  r.updateLabels fun labels =>
    Fields.insert (Fields.insert labels Label.provider (.string p.manifestLabel))
      Label.installed (.string "")

/-- Puts the labels of a provider on all resources. -/
def Manifest.label (p : Provider) (m : Manifest) : Manifest := m.map (·.label p)

end ProviderAssets
