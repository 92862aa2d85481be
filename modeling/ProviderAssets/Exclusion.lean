import ProviderAssets.Manifest.Basic
import ProviderAssets.Pattern.Parser
import ProviderAssets.Text.Lowercase
import ProviderAssets.Yaml.Decode

/-!
# Exclusions

An exclusion names resources of a provider that are left out of its assets. Definitions of custom
resources are never left out, since other providers may serve them.
-/

namespace ProviderAssets

/-- Which names are excluded. -/
inductive Exclusion where
  /-- Those that contain a text, whatever the case of their letters. -/
  | contains (needle : String)
  /-- Those in which a pattern is found; `source` is its text. -/
  | pattern (source : String) (p : Pattern)

namespace Exclusion

/-- Whether a name is excluded. -/
def excludes (e : Exclusion) (name : String) : Bool :=
  match e with
  | contains needle =>
    Text.hasPart (Text.lowercase needle).toList (Text.lowercase name).toList
  | pattern _ p => p.isFoundIn name

/-- Whether a resource is left out. -/
def drops (e : Exclusion) (r : Resource) : Bool :=
  r.kind ≠ .customResourceDefinition && e.excludes r.name

/-- The largest number of states that a pattern may have. -/
def stateLimit : Nat := 436906

/-- Reads a pattern. -/
def patternOf (source : String) : Except Mismatch Exclusion :=
  let invalid (reason : String) : Mismatch :=
    .custom ("invalid pattern " ++ Text.ticked source ++ ": " ++ reason)
  match Pattern.ofText? source with
  | some p =>
    if p.size ≤ stateLimit then pure (pattern source p)
    else throw (invalid "Compiled regex exceeds size limit of 10485760 bytes.")
  | none => throw (invalid "regex parse error")

open Yaml (Decode Decoder)

/-- The fields of an exclusion, of which exactly one is to be given. -/
structure Parts where
  /-- The text that names are searched for. -/
  contains : Option String := none
  /-- The exclusion by a pattern, which has been parsed. -/
  pattern : Option Exclusion := none

/-- Reads a pattern, if there is one. -/
def patternDecoder : Decoder (Option Exclusion) := fun p n => do
  match ← Decode.option Decode.string p n with
  | some source =>
    match patternOf source with
    | .ok e => return some e
    | .error m => Decode.mismatch m
  | none => return none

/-- Reads the fields of an exclusion. -/
def partsDecoder : Decoder Parts :=
  Decode.mapping "struct RawExclusion" fun p entries =>
    Decode.fields ["contains", "pattern"] .refused
      (fun name p n parts => do
        if name = "contains" then
          return { parts with contains := ← Decode.option Decode.string p n }
        else return { parts with pattern := ← patternDecoder p n })
      p [] entries {}

/-- Reads an exclusion. -/
def decoder : Decoder Exclusion := fun p n => do
  match ← partsDecoder p n with
  | { contains := some needle, pattern := none } => return contains needle
  | { contains := none, pattern := some e } => return e
  | _ =>
    Decode.mismatch (.custom <|
      "exclusion needs exactly one of " ++ Text.ticked "contains" ++ " or " ++
        Text.ticked "pattern")

end Exclusion

/-- The resources that are not left out. -/
def Manifest.exclude (e : Exclusion) (m : Manifest) : Manifest := m.filter (!e.drops ·)

end ProviderAssets
