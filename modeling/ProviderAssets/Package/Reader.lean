import ProviderAssets.Package
import ProviderAssets.Yaml.Value

/-!
# Reading packages

Reading back the objects of a package. Their kind and the version of their format may stand anywhere
among the fields, so they are looked at after all others.
-/

namespace ProviderAssets

open Yaml (Decode Decoder Place Node Value)

namespace Package

/-- Reads a map in sorted order. -/
def sortedMap : Decoder SortedFields := fun p n => SortedFields.ofPairs <$> Decode.stringMap p n

/-- The fields of metadata met so far. -/
structure MetadataParts where
  /-- The name. -/
  name : Option String := none
  /-- The namespace. -/
  ns : Option String := none
  /-- The labels. -/
  labels : Option SortedFields := none

/-- Reads metadata. -/
def metadata : Decoder ObjectMetadata :=
  Decode.mapping "struct ObjectMeta" fun p entries => do
    let parts : MetadataParts ← Decode.fields ["name", "namespace", "labels"] .ignored
      (fun name p n parts => do
        if name = "name" then return { parts with name := ← Decode.string p n }
        else if name = "namespace" then return { parts with ns := ← Decode.string p n }
        else return { parts with labels := ← sortedMap p n })
      p [] entries {}
    return {
      name := ← Decode.required "name" parts.name
      ns := ← Decode.required "namespace" parts.ns
      labels := parts.labels.getD .empty }

/-- Reads a record of which only one field matters. -/
def onlyField {α : Type} (type field : String) (d : Decoder α) : Decoder α :=
  Decode.mapping ("struct " ++ type) fun p entries => do
    let found ← Decode.fields [field] .ignored
      (fun _ p n (_ : Option α) => some <$> d p n) p [] entries none
    Decode.required field found

/-- The fields of an object with a header. -/
structure Parts (α : Type) where
  /-- What is known of the object besides its header. -/
  known : α
  /-- All other fields, latest first. -/
  others : List (String × Value) := []

/-- Reads the fields of an object with a header. `set` reads a known field. -/
def fields {α : Type} (names : List String) (set : String → Place → Node → α → Decode α)
    (p : Place) (seen : List String) : List (Node × Node) → Parts α → Decode (Parts α)
  | [], parts => return parts
  | (.missing, _) :: _, _ => Decode.broken
  | (k, v) :: rest, parts => do
    let name ← Decode.stringAs "field identifier" p k
    if name ∈ names then
      if name ∈ seen then Decode.mismatch (.duplicateField name)
      let known ← set name (Decode.Place.ofKey p k) v parts.known
      fields names set p (name :: seen) rest { parts with known }
    else
      let value ← Value.decoder .buffered (Decode.Place.ofKey p k) v
      fields names set p seen rest { parts with others := (name, value) :: parts.others }

/-- Checks that a value is the given word. -/
def checkWord (expected : String) (v : Value) : Decode Unit :=
  match v with
  | .string s =>
    if s = expected then return else Decode.mismatch (.wrongWord expected s)
  | v => Decode.mismatch (.invalidType v.found "a string")

/-- The words for the kinds of provider records. -/
def recordKinds : List String := ProviderType.all.map ProviderType.recordKind

/-- The type whose records have the given kind. -/
def typeOfRecordKind (kind : String) : Decode ProviderType :=
  match ProviderType.all.find? (·.recordKind = kind) with
  | some t => return t
  | none => Decode.mismatch (.unknownVariant kind recordKinds)

/-- The type whose records have the kind with the given key: its name, or its number. -/
def typeOfKey (key : Value) : Decode ProviderType :=
  match key with
  | .string kind => typeOfRecordKind kind
  | .integer n =>
    if n < 0 then Decode.mismatch (.invalidType (.integer n) "variant identifier")
    else
      match ProviderType.all[n.toNat]? with
      | some t => return t
      | none => Decode.mismatch (.invalidValue (.integer n) "variant index 0 <= i < 4")
  | key => Decode.mismatch (.invalidType key.found "variant identifier")

/-- The type whose records have the kind that a value names: a text, or a key without contents. -/
def typeOfKind (v : Value) : Decode ProviderType :=
  match v with
  | .string kind => typeOfRecordKind kind
  | .mapping [(key, contents)] => do
    let type ← typeOfKey key
    match contents with
    | .null | .mapping [] => return type
    | contents => Decode.mismatch (.invalidType contents.found "unit")
  | .mapping _ => Decode.mismatch (.invalidValue .map "map with a single key")
  | v => Decode.mismatch (.invalidType v.found "string or map")

/-- Reads the header of an object from the fields that are not known, in their order. -/
def header {α : Type} (version : String) (kind : Value → Decode α)
    (others : List (String × Value)) : Decode α := do
  -- The fields are held latest first.
  let (versionSeen, found) ← others.reverse.foldlM (fun (versionSeen, found) (name, v) => do
    if name = "apiVersion" then
      if versionSeen then Decode.mismatch (.duplicateField name)
      checkWord version v
      return (true, found)
    else if name = "kind" then
      if found.isSome then Decode.mismatch (.duplicateField name)
      return (versionSeen, some (← kind v))
    else return (versionSeen, found)) (false, (none : Option α))
  if !versionSeen then Decode.mismatch (.missingField "apiVersion")
  Decode.required "kind" found

end Package

namespace ConfigMap

/-- The fields met so far. -/
structure Parts where
  /-- The name, the namespace and the labels. -/
  metadata : Option ObjectMetadata := none
  /-- The texts by their names. -/
  data : Option SortedFields := none

/-- Reads a config map. -/
def decoder : Decoder ConfigMap :=
  Decode.mapping "struct ConfigMap" fun p entries => do
    let parts ← Package.fields ["metadata", "data"]
      (fun name p n (parts : Parts) => do
        if name = "metadata" then return { parts with metadata := ← Package.metadata p n }
        else return { parts with data := ← Package.sortedMap p n })
      p [] entries { known := {} }
    let metadata ← Decode.required "metadata" parts.known.metadata
    let data ← Decode.required "data" parts.known.data
    Package.header apiVersion (Package.checkWord kind) parts.others
    return { metadata, data }

/-- The config map that documents describe. -/
def ofDocuments (documents : List Yaml.Document) : Except Error ConfigMap :=
  decoder.read documents

end ConfigMap

namespace ProviderRecord

/-- Reads the labels by which config maps are found. -/
def matchLabelsDecoder : Decoder SortedFields :=
  Package.onlyField "FetchConfig" "selector"
    (Package.onlyField "LabelSelector" "matchLabels" Package.sortedMap)

/-- The fields of a specification met so far. -/
structure SpecParts where
  /-- The version of the provider. -/
  version : Option String := none
  /-- The labels by which the config map is found. -/
  matchLabels : Option SortedFields := none

/-- Reads a specification: the version and the labels by which config maps are found. -/
def specDecoder : Decoder (String × SortedFields) :=
  Decode.mapping "struct ProviderSpec" fun p entries => do
    let parts : SpecParts ← Decode.fields ["version", "fetchConfig"] .ignored
      (fun name p n parts => do
        if name = "version" then return { parts with version := ← Decode.string p n }
        else return { parts with matchLabels := ← matchLabelsDecoder p n })
      p [] entries {}
    return (← Decode.required "version" parts.version,
      ← Decode.required "fetchConfig" parts.matchLabels)

/-- The fields met so far. -/
structure Parts where
  /-- The name, the namespace and the labels. -/
  metadata : Option ObjectMetadata := none
  /-- The version, and the labels by which the config map is found. -/
  spec : Option (String × SortedFields) := none

/-- Reads the record of a provider. -/
def decoder : Decoder ProviderRecord :=
  Decode.mapping "struct ProviderRecord" fun p entries => do
    let parts ← Package.fields ["metadata", "spec"]
      (fun name p n (parts : Parts) => do
        if name = "metadata" then return { parts with metadata := ← Package.metadata p n }
        else return { parts with spec := ← specDecoder p n })
      p [] entries { known := {} }
    let metadata ← Decode.required "metadata" parts.known.metadata
    let (version, matchLabels) ← Decode.required "spec" parts.known.spec
    let type ← Package.header apiVersion Package.typeOfKind parts.others
    return { type, metadata, version, matchLabels }

/-- The record that documents describe. -/
def ofDocuments (documents : List Yaml.Document) : Except Error ProviderRecord :=
  decoder.read documents

end ProviderRecord

end ProviderAssets
