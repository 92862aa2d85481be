import ProviderAssets.Yaml.Value

/-!
# Objects read in place

Reading a node as a JSON value or object, without going through a value of the YAML data model: a
key may be any scalar and stands for its text, and a key that comes again overwrites the value.
-/

namespace ProviderAssets.Yaml.Decode

/-- The JSON value that a scalar stands for. -/
def jsonOfScalar (info : NodeInfo) (text : String) (style : ScalarStyle) : Decode Json.Value := do
  if (ownTag? info.tag).isSome then mismatch (.invalidType .tagged "any valid JSON value")
  match readScalar info.tag text style >>= Value.ofFound "any valid JSON value" with
  | .ok v =>
    match v.toJson with
    | .ok v => return v
    | .error m => mismatch m
  | .error m => mismatch m

/-- Reads the entries of a mapping into `fields`. -/
def jsonFields (value : Decoder Json.Value) (p : Place) (first : Bool) (fields : Json.Object) :
    List (Node × Node) → Decode Json.Object
  | [] => return fields
  | (.missing, _) :: _ => broken
  | (k, v) :: rest => do
    let key ← stringAs (Value.expectedKey first) p k
    let value' ← value (Place.ofKey p k) v
    jsonFields value p false (Fields.insert fields key value') rest

/-- Reads a node as a JSON value; `fuel` bounds the nesting. -/
def jsonWith : Nat → Decoder Json.Value
  | 0 => fun _ n => throw (.depth n.mark)
  | fuel + 1 => fun p n => do
    let untagged (info : NodeInfo) (contents : Decode Json.Value) : Decode Json.Value :=
      located info.mark p.path do
        if (ownTag? info.tag).isSome then
          mismatch (.invalidType .tagged "any valid JSON value")
        contents
    match ← follow n with
    | .absent _ => return .null
    | .missing | .aliasOf _ _ => broken
    | .scalar info text style => located info.mark p.path (jsonOfScalar info text style)
    | .sequence info xs =>
      untagged info <| enter info.mark p fun p => return .array (← items (jsonWith fuel) p 0 xs)
    | .mapping info es =>
      untagged info <| enter info.mark p fun p =>
        return .object (← jsonFields (jsonWith fuel) p true [] es)

/-- A JSON value. -/
def json : Decoder Json.Value := fun p n => jsonWith (p.depth + 1) p n

/-- A JSON object. -/
def object : Decoder Json.Object := mapping "a map" fun p es => jsonFields json p false [] es

end ProviderAssets.Yaml.Decode
