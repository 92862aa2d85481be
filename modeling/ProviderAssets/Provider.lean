import ProviderAssets.Text.Lowercase

/-!
# Providers

A provider of a cluster API in one version, and the names that are made from it: the label on its
resources, the file its components come in, and the files its assets go to.
-/

namespace ProviderAssets

/-- The four types of provider. -/
inductive ProviderType where
  | core
  | controlPlane
  | bootstrap
  | infrastructure
  deriving DecidableEq

namespace ProviderType

/-- All types. -/
def all : List ProviderType := [core, controlPlane, bootstrap, infrastructure]

/-- The name of a type in labels, image keys and file names. -/
def name : ProviderType → String
  | core => "core"
  | controlPlane => "controlplane"
  | bootstrap => "bootstrap"
  | infrastructure => "infrastructure"

/-- The type with the given name. -/
def ofName? (s : String) : Option ProviderType := all.find? (·.name = s)

/-- What the label and the components file of a provider of this type begin with. -/
def manifestName : ProviderType → String
  | controlPlane => "control-plane"
  | t => t.name

/-- The kind of the record that activates a provider of this type. -/
def recordKind : ProviderType → String
  | core => "CoreProvider"
  | controlPlane => "ControlPlaneProvider"
  | bootstrap => "BootstrapProvider"
  | infrastructure => "InfrastructureProvider"

end ProviderType

/-- A provider in one version. -/
structure Provider where
  /-- The name, without the type. -/
  name : String
  /-- What the provider provides. -/
  type : ProviderType
  /-- The version. -/
  version : String
  deriving DecidableEq

namespace Provider

/-- Type and name in lower case, which all files of a provider are named by. -/
def qualifiedName (p : Provider) : String := Text.lowercase (p.type.name ++ "-" ++ p.name)

/-- The label on the resources of a provider. There is one core provider, whatever its name. -/
def manifestLabel (p : Provider) : String :=
  match p.type with
  | .core => "cluster-api"
  | t => t.manifestName ++ "-" ++ p.name

/-- The file that the components of a provider come in. -/
def componentsFile (p : Provider) : String := p.type.manifestName ++ "-components.yaml"

/-- The file for the config map. -/
def configMapFile (p : Provider) : String := p.qualifiedName ++ ".yaml"

/-- The file for the record that activates the provider. -/
def recordFile (p : Provider) : String := p.qualifiedName ++ "-provider.yaml"

/-- The file for roles and accounts. -/
def rbacFile (p : Provider) : String := "0000_30_cluster-api-" ++ p.qualifiedName ++ "_03_rbac.yaml"

end Provider

end ProviderAssets
