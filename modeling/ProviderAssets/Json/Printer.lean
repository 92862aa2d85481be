import ProviderAssets.Json.Value
import ProviderAssets.Number.Shortest
import ProviderAssets.SortedFields
import ProviderAssets.Text.Cut

/-!
# Writing JSON

The compact text of a value, and the indented text of an object of texts.
-/

namespace ProviderAssets.Json

/-- The lower-case hexadecimal digit of a number below sixteen. -/
def hexDigit (n : Nat) : Char := Nat.digitChar n

/-- A character as it stands in a string: quotes, backslashes and control characters are escaped. -/
def escaped (c : Char) : List Char :=
  match c with
  | '"' => ['\\', '"']
  | '\\' => ['\\', '\\']
  | '\x08' => ['\\', 'b']
  | '\x0c' => ['\\', 'f']
  | '\n' => ['\\', 'n']
  | '\r' => ['\\', 'r']
  | '\t' => ['\\', 't']
  | c =>
    if c.toNat < 0x20 then
      ['\\', 'u', '0', '0', hexDigit (c.toNat / 16), hexDigit (c.toNat % 16)]
    else [c]

/-- A string between quotes. -/
def quoted (s : String) : String := String.ofList ('"' :: s.toList.flatMap escaped ++ ['"'])

/-- A number. -/
def Number.text : Number → String
  | integer n => toString n
  | float x => x.render .compact

mutual

/-- The text of a value without white space. -/
def Value.compact : Value → String
  | null => "null"
  | bool b => if b then "true" else "false"
  | number n => n.text
  | string s => quoted s
  | array items => "[" ++ Text.joinWith "," (compactItems items) ++ "]"
  | object fields => "\x7b" ++ Text.joinWith "," (compactFields fields) ++ "\x7d"

/-- The texts of the items of an array. -/
def Value.compactItems : List Value → List String
  | [] => []
  | x :: xs => x.compact :: compactItems xs

/-- The texts of the fields of an object. -/
def Value.compactFields : List (String × Value) → List String
  | [] => []
  | (k, v) :: rest => (quoted k ++ ":" ++ v.compact) :: compactFields rest

end

/-- A line of the indented text of an object of texts. -/
def fieldLine (field : String × String) : String :=
  "  " ++ quoted field.1 ++ ": " ++ quoted field.2

/-- The indented text of an object of texts: one field on each line. -/
def pretty (fields : SortedFields) : String :=
  if fields.isEmpty then "\x7b\x7d"
  else "\x7b\n" ++ Text.joinWith ",\n" (fields.entries.map fieldLine) ++ "\n\x7d"

end ProviderAssets.Json
