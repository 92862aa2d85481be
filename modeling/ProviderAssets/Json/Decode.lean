import ProviderAssets.Json.Value
import ProviderAssets.Mismatch

/-!
# Decoding JSON values

Making a value of a certain shape of a JSON value. A record is an object, or an array of the values
of its fields in their order.
-/

namespace ProviderAssets.Json

/-- A way to make something of a value. -/
abbrev Decoder (α : Type) := Value → Except Mismatch α

/-- What a value is, in the words of a mismatch. -/
def Value.found : Value → Found
  | null => .null
  | bool b => .bool b
  | number (.integer n) => .integer n
  | number (.float x) => .float x
  | string s => .string s
  | array _ => .sequence
  | object _ => .map

namespace Decoder

variable {α β : Type}

/-- A text. -/
def string : Decoder String
  | .string s => pure s
  | v => throw (.invalidType v.found "a string")

/-- A value that may be null. -/
def option (d : Decoder α) : Decoder (Option α)
  | .null => pure none
  | v => some <$> d v

/-- An array. -/
def list (d : Decoder α) : Decoder (List α)
  | .array xs => xs.mapM d
  | v => throw (.invalidType v.found "a sequence")

/-- The value of a field that must be there. -/
def required (name : String) : Option α → Except Mismatch α
  | some a => pure a
  | none => throw (.missingField name)

/-- What is asked for where an array has too few values for a record. -/
def elements (type : String) (n : Nat) : String :=
  "struct " ++ type ++ " with " ++ toString n ++ if n = 1 then " element" else " elements"

/-- A record with one field, which stands for `absent` where it is missing; without that it must be
there. -/
def record1 (type name : String) (d : Decoder α) (absent : Option α) : Decoder α
  | .object fields =>
    match Fields.get? fields name with
    | some v => d v
    | none => required name absent
  | .array [] =>
    match absent with
    | some a => pure a
    | none => throw (.invalidLength 0 (elements type 1))
  | .array [v] => d v
  | .array (v :: more) => do
    discard (d v)
    throw (.invalidLength (more.length + 1) "fewer elements in array")
  | v => throw (.invalidType v.found ("struct " ++ type))

/-- Decodes the fields of a record of two fields in the order in which they come. -/
def pairOfFields (name₁ : String) (d₁ : Decoder α) (name₂ : String) (d₂ : Decoder β) :
    Object → Option α × Option β → Except Mismatch (Option α × Option β)
  | [], found => pure found
  | (key, v) :: rest, found => do
    if key = name₁ then pairOfFields name₁ d₁ name₂ d₂ rest (some (← d₁ v), found.2)
    else if key = name₂ then pairOfFields name₁ d₁ name₂ d₂ rest (found.1, some (← d₂ v))
    else pairOfFields name₁ d₁ name₂ d₂ rest found

/-- A record with two fields. The first one must be there; the second one stands for `absent` where
it is missing, and without that must be there too. -/
def record2 (type name₁ : String) (d₁ : Decoder α) (name₂ : String) (d₂ : Decoder β)
    (absent : Option β) : Decoder (α × β)
  | .object fields => do
    let found ← pairOfFields name₁ d₁ name₂ d₂ fields (none, none)
    return (← required name₁ found.1, ← required name₂ (found.2 <|> absent))
  | .array [] => throw (.invalidLength 0 (elements type 2))
  | .array [v] => do
    let a ← d₁ v
    match absent with
    | some b => pure (a, b)
    | none => throw (.invalidLength 1 (elements type 2))
  | .array [v, w] => return (← d₁ v, ← d₂ w)
  | .array (v :: w :: more) => do
    discard (d₁ v)
    discard (d₂ w)
    throw (.invalidLength (more.length + 2) "fewer elements in array")
  | v => throw (.invalidType v.found ("struct " ++ type))

end Decoder

end ProviderAssets.Json
