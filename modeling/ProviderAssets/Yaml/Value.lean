import ProviderAssets.Yaml.Decode

/-!
# Values of the YAML data model

What a document stands for when nothing particular is asked of it: mappings may have keys of any
kind, and a value may carry a tag of the document's own. `Value.toJson` gives the JSON value of such
a value, where there is one.
-/

namespace ProviderAssets.Yaml

/-- A value. -/
inductive Value where
  | null
  | bool (b : Bool)
  | integer (n : Int)
  | float (x : Binary64)
  | string (s : String)
  | sequence (items : List Value)
  | mapping (entries : List (Value × Value))
  | tagged (tag : String) (value : Value)
  deriving Inhabited

namespace Value

/-- The value that a scalar stands for, where `expected` names what is asked for. Integers of more
than 64 bits have no value. -/
def ofFound (expected : String) : Found → Except Mismatch Value
  | .null | .sequence | .map | .tagged => pure null
  | .bool b => pure (bool b)
  | .integer n => pure (integer n)
  | .float x => pure (float x)
  | .string s => pure (string s)
  | .wideInteger n => throw (.invalidType (.wideInteger n) expected)

/-- What a value is, in the words of a mismatch. -/
def found : Value → Found
  | null => .null
  | bool b => .bool b
  | integer n => .integer n
  | float x => .float x
  | string s => .string s
  | sequence _ => .sequence
  | mapping _ => .map
  | tagged _ _ => .tagged

/-- Whether two numbers are the same key. -/
def sameFloat (x y : Binary64) : Bool := x.isEqual y || (x.isNaN && y.isNaN)

mutual

/-- Whether two values are the same key. -/
def sameKey : Value → Value → Bool
  | null, null => true
  | bool a, bool b => a = b
  | integer a, integer b => a = b
  | float a, float b => sameFloat a b
  | string a, string b => a = b
  | sequence a, sequence b => sameItems a b
  | mapping a, mapping b => a.length = b.length && sameEntries a b
  | tagged s a, tagged t b => s = t && sameKey a b
  | _, _ => false

/-- Whether two sequences are the same key. -/
def sameItems : List Value → List Value → Bool
  | [], [] => true
  | x :: xs, y :: ys => sameKey x y && sameItems xs ys
  | _, _ => false

/-- Whether every entry of the first mapping is in the second one. -/
def sameEntries : List (Value × Value) → List (Value × Value) → Bool
  | [], _ => true
  | (k, v) :: rest, b =>
    b.any (fun (l, w) => sameKey k l && sameKey v w) && sameEntries rest b

end

/-- The text of a number in a message about keys. -/
def floatKeyText (x : Binary64) : String :=
  if x.isFinite then x.render .compact
  else if x.isNaN then ".nan"
  else if x.isNegative then "-.inf"
  else ".inf"

/-- The message about a key that a mapping has twice. -/
def repeatedKey (key : Value) : String :=
  "duplicate entry " ++
    match key with
    | null => "with null key"
    | bool b => "with key " ++ Text.ticked (if b then "true" else "false")
    | integer n => "with key " ++ toString n
    | float x => "with key " ++ floatKeyText x
    | string s => "with key " ++ Text.quoted s
    | sequence _ | mapping _ | tagged _ _ => "in YAML map"

/-- How values are read. -/
structure Reading where
  /-- What is asked for, in the words of a mismatch. -/
  expected : String
  /-- Whether values may carry tags of their own. -/
  keepsTags : Bool
  /-- Whether the keys of a mapping must be distinct. -/
  distinctKeys : Bool

/-- Values of any kind. -/
def Reading.anyValue : Reading := ⟨"any YAML value", true, true⟩

/-- Values that are kept until it is known what they are for. They carry no tags. -/
def Reading.buffered : Reading := ⟨"any value", false, false⟩

/-- Reads a node that may carry a tag of the document's own, given the reading of its contents. -/
def readTagged (r : Reading) (tag : Option String) (contents : Decode Value) : Decode Value := do
  match ownTag? tag with
  | none => contents
  | some name =>
    if r.keepsTags then return tagged name (← contents)
    else
      Decode.mismatch (.custom "untagged and internally tagged enums do not support enum input")

/-- Reads the value of a scalar. -/
def readScalarValue (r : Reading) (tag : Option String) (text : String) (style : ScalarStyle) :
    Decode Value :=
  readTagged r tag do
    match readScalar tag text style >>= ofFound r.expected with
    | .ok v => return v
    | .error m => Decode.mismatch m

/-- Reads the entries of a mapping after those in `done`, latest first. -/
def readEntries (r : Reading) (value : Decoder Value) (p : Place) (done : List (Value × Value)) :
    List (Node × Node) → Decode (List (Value × Value))
  | [] => return done.reverse
  | (.missing, _) :: _ => Decode.broken
  | (k, v) :: rest => do
    let key ← value p k
    if r.distinctKeys && done.any (fun (old, _) => old.sameKey key) then
      Decode.mismatch (.custom (repeatedKey key))
    let v ← value (Decode.Place.ofKey p k) v
    readEntries r value p ((key, v) :: done) rest

/-- Reads a node as a value; `fuel` bounds the nesting. -/
def readWith (r : Reading) : Nat → Decoder Value
  | 0 => fun _ n => throw (.depth n.mark)
  | fuel + 1 => fun p n => do
    match ← Decode.follow n with
    | .absent _ => return null
    | .missing | .aliasOf _ _ => Decode.broken
    | .scalar info text style =>
      Decode.located info.mark p.path (readScalarValue r info.tag text style)
    | .sequence info xs =>
      Decode.located info.mark p.path <| readTagged r info.tag <|
        Decode.enter info.mark p fun p => return sequence (← Decode.items (readWith r fuel) p 0 xs)
    | .mapping info es =>
      Decode.located info.mark p.path <| readTagged r info.tag <|
        Decode.enter info.mark p fun p => return mapping (← readEntries r (readWith r fuel) p [] es)

/-- Reads a node as a value. -/
def decoder (r : Reading) : Decoder Value := fun p n => readWith r (p.depth + 1) p n

/-- The value without its tags. -/
def untagged : Value → Value
  | tagged _ v => v.untagged
  | v => v

/-- Whether the value is null, tags aside. -/
def isNull (v : Value) : Bool :=
  match v.untagged with
  | null => true
  | _ => false

/-- The text that a value is as a key of an object, where `expected` names what is asked for. -/
def keyText (expected : String) (v : Value) : Except Mismatch String :=
  match v.untagged with
  | string s => pure s
  | v => throw (.invalidType v.found expected)

/-- What is asked for in the place of a key: the first key of an object decides that it is one. -/
def expectedKey (first : Bool) : String := if first then "a string key" else "a string"

mutual

/-- The JSON value of a value. Infinities and NaN become null. -/
def toJson : Value → Except Mismatch Json.Value
  | null => pure .null
  | bool b => pure (.bool b)
  | integer n => pure (.number (.integer n))
  | float x => pure (if x.isFinite then .number (.float x) else .null)
  | string s => pure (.string s)
  | sequence items => do return .array (← toJsonItems items)
  | mapping entries => do return .object (← toJsonFields true [] entries)
  | tagged _ _ => throw (.invalidType .tagged "any valid JSON value")

/-- The JSON values of the items of a sequence. -/
def toJsonItems : List Value → Except Mismatch (List Json.Value)
  | [] => pure []
  | x :: xs => do
    let y ← x.toJson
    return y :: (← toJsonItems xs)

/-- The fields of the entries of a mapping, written into `fields`. -/
def toJsonFields (first : Bool) (fields : Json.Object) :
    List (Value × Value) → Except Mismatch Json.Object
  | [] => pure fields
  | (k, v) :: rest => do
    let key ← keyText (expectedKey first) k
    let value ← v.toJson
    toJsonFields false (Fields.insert fields key value) rest

end

/-- The JSON object of a value. A null is the empty object. -/
def toObject (v : Value) : Except Mismatch Json.Object :=
  match v.untagged with
  | null => pure []
  | mapping entries => toJsonFields false [] entries
  | v => throw (.invalidType v.found "a map")

end Value

/-- Whether every document of a text can be read as a value. -/
def isWellFormed (documents : List Document) : Bool :=
  documents.all fun d =>
    match (Value.decoder .anyValue).readDocument d with
    | .ok _ => true
    | .error _ => false

end ProviderAssets.Yaml
