import ProviderAssets.Manifest.Text
import ProviderAssets.Provider
import ProviderAssets.SortedFields

/-!
# Packages

The operator of the cluster installs a provider from two objects: a config map with the components
and the metadata of the release, and a record that says which version to install and by which labels
its config map is found.
-/

namespace ProviderAssets

open Json (Value)

/-- What an object of a package says about itself. -/
structure ObjectMetadata where
  /-- The name. -/
  name : String
  /-- The namespace. -/
  ns : String
  /-- The labels. -/
  labels : SortedFields
  deriving DecidableEq

/-- The object that holds what a release consists of. -/
structure ConfigMap where
  /-- The name, the namespace and the labels. -/
  metadata : ObjectMetadata
  /-- The texts by their names. -/
  data : SortedFields
  deriving DecidableEq

/-- The object that activates a provider. -/
structure ProviderRecord where
  /-- What the provider provides, which decides about the kind of the object. -/
  type : ProviderType
  /-- The name, the namespace and the labels. -/
  metadata : ObjectMetadata
  /-- The version of the provider. -/
  version : String
  /-- The labels by which the config map is found. -/
  matchLabels : SortedFields
  deriving DecidableEq

/-- What a provider is installed from. -/
structure Package where
  /-- The object that holds the release. -/
  configMap : ConfigMap
  /-- The object that activates it. -/
  record : ProviderRecord
  deriving DecidableEq

/-- A map as an object. -/
def SortedFields.toJson (m : SortedFields) : Value :=
  .object (m.entries.map fun (key, value) => (key, .string value))

/-- The object of metadata. Labels are left out if there are none. -/
def ObjectMetadata.toJson (m : ObjectMetadata) : Value :=
  let labels := if m.labels.isEmpty then [] else [("labels", m.labels.toJson)]
  .object ([("name", .string m.name), ("namespace", .string m.ns)] ++ labels)

namespace ConfigMap

/-- The version of the format. -/
def apiVersion : String := "v1"

/-- The kind of the object. -/
def kind : String := "ConfigMap"

/-- The object. -/
def toJson (c : ConfigMap) : Value :=
  .object [("apiVersion", .string apiVersion), ("kind", .string kind),
    ("metadata", c.metadata.toJson), ("data", c.data.toJson)]

/-- The text of the object. -/
def render (c : ConfigMap) : String := Text.endLine (Yaml.render c.toJson)

end ConfigMap

namespace ProviderRecord

/-- The version of the format. -/
def apiVersion : String := "operator.cluster.x-k8s.io/v1alpha1"

/-- The object. -/
def toJson (r : ProviderRecord) : Value :=
  .object [("apiVersion", .string apiVersion), ("kind", .string r.type.recordKind),
    ("metadata", r.metadata.toJson),
    ("spec", .object [("version", .string r.version),
      ("fetchConfig", .object [("selector",
        .object [("matchLabels", r.matchLabels.toJson)])])])]

/-- The text of the object. -/
def render (r : ProviderRecord) : String := Text.endLine (Yaml.render r.toJson)

end ProviderRecord

namespace Package

/-- The label for the name of a provider. -/
def nameLabel : String := "provider.cluster.x-k8s.io/name"

/-- The label for the type of a provider. -/
def typeLabel : String := "provider.cluster.x-k8s.io/type"

/-- The label for the version of a provider. -/
def versionLabel : String := "provider.cluster.x-k8s.io/version"

/-- The labels by which the config maps of a provider are found. -/
def selectorLabels (p : Provider) : SortedFields :=
  .ofPairs [(nameLabel, p.name), (typeLabel, p.type.name)]

/-- The config map of a provider. -/
def configMapOf (components : Manifest) (p : Provider) (ns metadata : String) : ConfigMap where
  metadata :=
    { name := p.name ++ "-" ++ p.version
      ns
      labels := (selectorLabels p).insert versionLabel p.version }
  data := .ofPairs [("metadata", metadata), ("components", components.render)]

/-- The record of a provider. -/
def recordOf (p : Provider) (ns : String) : ProviderRecord where
  type := p.type
  metadata := { name := p.name, ns, labels := .empty }
  version := p.version
  matchLabels := selectorLabels p

/-- The package of a provider. The metadata of its release must be text. -/
def make (components : Manifest) (p : Provider) (ns : String) (metadata : List UInt8) :
    Except Error Package :=
  match Text.ofBytes? metadata with
  | some metadata =>
    pure { configMap := configMapOf components p ns metadata, record := recordOf p ns }
  | none => throw (.utf8 ("metadata of provider " ++ Text.ticked p.name))

end Package

/-- The text of the manifest of roles and accounts. -/
def Manifest.renderRbac (m : Manifest) : String := Text.endLine m.render

end ProviderAssets
