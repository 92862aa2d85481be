import ProviderAssets.Error
import ProviderAssets.Yaml.Decode
import ProviderAssets.Yaml.Printer

/-!
# Selectors of kinds

A selector is a condition on the group, the version and the kind of a resource.
-/

namespace ProviderAssets

open Yaml (Decode Decoder)

/-- A condition on group, version and kind; what is not given may be anything. -/
structure KindSelector where
  /-- The group that is asked for. -/
  group : Option String := none
  /-- The version that is asked for. -/
  version : Option String := none
  /-- The name of the kind that is asked for. -/
  kind : Option String := none
  deriving DecidableEq

namespace KindSelector

/-- Whether the condition holds. -/
def admits (s : KindSelector) (g : GroupVersionKind) : Bool :=
  s.group.all (· = g.group) && s.version.all (· = g.version) && s.kind.all (· = g.kind)

/-- How messages name it. -/
def text (s : KindSelector) : String :=
  let part (x : Option String) : String := (x.map (· ++ ".")).getD ""
  part s.kind ++ part s.version ++ s.group.getD "*"

/-- Reads the value of a field. -/
def setField (field : String) (p : Yaml.Place) (n : Yaml.Node) (s : KindSelector) :
    Decode KindSelector := do
  let value ← Decode.option Decode.string p n
  if field = "group" then return { s with group := value }
  else if field = "version" then return { s with version := value }
  else return { s with kind := value }

/-- Reads a selector. -/
def decoder : Decoder KindSelector :=
  Decode.mapping "struct GvkMatcher" fun p entries =>
    Decode.fields ["group", "version", "kind"] .ignored setField p [] entries {}

/-- The selector that documents describe. -/
def ofDocuments (documents : List Yaml.Document) : Except Error KindSelector :=
  decoder.read documents

/-- The object of a selector. What is not given is left out. -/
def toJson (s : KindSelector) : Json.Value :=
  let field (name : String) (value : Option String) : Json.Object :=
    (value.map fun v => (name, Json.Value.string v)).toList
  .object (field "group" s.group ++ field "version" s.version ++ field "kind" s.kind)

/-- The text of a selector. -/
def render (s : KindSelector) : String := Yaml.render s.toJson

end KindSelector

end ProviderAssets
