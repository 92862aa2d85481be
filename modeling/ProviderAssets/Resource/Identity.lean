/-!
# Identity of resources

A resource is identified by group, version and kind, its name, and its namespace if it has one.
-/

namespace ProviderAssets

/-- Group, version and kind of a resource. The core group has no name. -/
structure GroupVersionKind where
  /-- The group of the API. -/
  group : String
  /-- The version of the API. -/
  version : String
  /-- The name of the kind. -/
  kind : String
  deriving DecidableEq

namespace GroupVersionKind

/-- Group and version as a resource gives them. -/
def apiVersion (g : GroupVersionKind) : String :=
  if g.group.isEmpty then g.version else g.group ++ "/" ++ g.version

/-- How messages name it. -/
def text (g : GroupVersionKind) : String :=
  g.kind ++ "." ++ g.version ++ if g.group.isEmpty then "" else "." ++ g.group

end GroupVersionKind

/-- The identity of a resource. -/
structure ResourceId where
  /-- Group, version and kind. -/
  gvk : GroupVersionKind
  /-- The name. -/
  name : String
  /-- The namespace, if it is in one. -/
  ns : Option String
  deriving DecidableEq

/-- How messages name a resource. -/
def ResourceId.text (id : ResourceId) : String :=
  id.gvk.text ++ "/" ++ id.name ++ ((id.ns.map ("." ++ ·)).getD "")

end ProviderAssets
