import ProviderAssets.Number.Shortest
import ProviderAssets.Text.Cut
import ProviderAssets.Text.Quoted

/-!
# Values that do not fit

Why a value of a document does not have the shape that is asked for, and the words for it. Two
formats are read, and they name a few kinds of value differently; the rest of the wording is shared.
-/

namespace ProviderAssets

/-- What was found in place of the expected value. -/
inductive Found where
  | null
  | bool (b : Bool)
  | integer (n : Int)
  /-- An integer of more than 64 bits. -/
  | wideInteger (n : Int)
  | float (x : Binary64)
  | string (s : String)
  | sequence
  | map
  | tagged
  deriving DecidableEq

/-- How a format words what it has found. -/
structure Wording where
  /-- The name of nulls. -/
  null : String
  /-- The layout of numbers that are not integers. -/
  layout : Binary64.Layout

/-- The wording of a null and of a number where the format is known for its data model. -/
def Wording.json : Wording := ⟨"null", .compact⟩

/-- The wording where values are spoken of in general. -/
def Wording.general : Wording := ⟨"unit value", .positional⟩

namespace Found

/-- The text of a number that may be infinite or no number. -/
def floatText (l : Binary64.Layout) (x : Binary64) : String :=
  if x.isFinite then x.render l
  else if x.isNaN then "NaN"
  else if x.isNegative then "-inf"
  else "inf"

/-- The words for what was found. -/
def describe (w : Wording) : Found → String
  | null => w.null
  | bool b => "boolean " ++ Text.ticked (if b then "true" else "false")
  | integer n => "integer " ++ Text.ticked (toString n)
  | wideInteger n =>
    "integer " ++ Text.ticked (toString n) ++ " as " ++ if n < 0 then "i128" else "u128"
  | float x => "floating point " ++ Text.ticked (floatText w.layout x)
  | string s => "string " ++ Text.quoted s
  | sequence => "sequence"
  | map => "map"
  | tagged => "enum"

end Found

/-- Why a value does not have the expected shape. -/
inductive Mismatch where
  | invalidType (found : Found) (expected : String)
  | invalidValue (found : Found) (expected : String)
  | invalidLength (length : Nat) (expected : String)
  | unknownVariant (name : String) (variants : List String)
  | unknownField (name : String) (fields : List String)
  | missingField (name : String)
  | duplicateField (name : String)
  /-- A fixed word was expected and another one found. -/
  | wrongWord (expected found : String)
  /-- A rule of the value itself is broken; the text says which. -/
  | custom (text : String)
  deriving DecidableEq

namespace Mismatch

/-- The clause that lists the names that would have been right. -/
def oneOf : List String → String
  | [] => "there are no fields"
  | [a] => "expected " ++ Text.ticked a
  | [a, b] => "expected " ++ Text.ticked a ++ " or " ++ Text.ticked b
  | names => "expected one of " ++ Text.joinWith ", " (names.map Text.ticked)

/-- The message. -/
def message (w : Wording) : Mismatch → String
  | invalidType found expected => "invalid type: " ++ found.describe w ++ ", expected " ++ expected
  | invalidValue found expected =>
    "invalid value: " ++ found.describe w ++ ", expected " ++ expected
  | invalidLength n expected => "invalid length " ++ toString n ++ ", expected " ++ expected
  | unknownVariant name variants =>
    "unknown variant " ++ Text.ticked name ++ ", " ++ oneOf variants
  | unknownField name fields => "unknown field " ++ Text.ticked name ++ ", " ++ oneOf fields
  | missingField name => "missing field " ++ Text.ticked name
  | duplicateField name => "duplicate field " ++ Text.ticked name
  | wrongWord expected found =>
    "expected " ++ Text.ticked expected ++ ", found " ++ Text.ticked found
  | custom text => text

end Mismatch

end ProviderAssets
