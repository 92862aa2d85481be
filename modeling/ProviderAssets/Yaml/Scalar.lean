import ProviderAssets.Mismatch
import ProviderAssets.Yaml.Token

/-!
# What a scalar stands for

A plain scalar without a tag is a null, a truth value, an integer or another number if its text
looks like one, and a text otherwise. A tag of the core schema asks for one of these kinds.
-/

namespace ProviderAssets.Yaml

/-- Whether the text is one of the spellings of null. -/
def isNullText (s : String) : Bool := s ∈ ["null", "Null", "NULL", "~"]

/-- The truth value that the text spells. -/
def boolOfText? (s : String) : Option Bool :=
  if s ∈ ["true", "True", "TRUE"] then some true
  else if s ∈ ["false", "False", "FALSE"] then some false
  else none

/-- The value of a digit in a base up to sixteen. -/
def digitValue? (base : Nat) (c : Char) : Option Nat :=
  let value :=
    if c.isDigit then some (c.toNat - '0'.toNat)
    else if 'a' ≤ c ∧ c ≤ 'f' then some (c.toNat - 'a'.toNat + 10)
    else if 'A' ≤ c ∧ c ≤ 'F' then some (c.toNat - 'A'.toNat + 10)
    else none
  value.filter (· < base)

/-- The number that a non-empty text of digits stands for. -/
def natOfDigits? (base : Nat) (cs : List Char) : Option Nat := do
  let values ← cs.mapM (digitValue? base)
  if values.isEmpty then none else some (values.foldl (base * · + ·) 0)

/-- Whether the digits have a zero in front, which makes a text of them. -/
def hasLeadingZero (cs : List Char) : Bool :=
  match cs with
  | '0' :: rest => !rest.isEmpty && rest.all Char.isDigit
  | _ => false

/-- The natural number that the text stands for: digits of base ten without a zero in front, or of
another base after its mark. -/
def magnitude? (cs : List Char) : Option Nat :=
  match cs with
  | '0' :: 'x' :: digits => natOfDigits? 16 digits
  | '0' :: 'o' :: digits => natOfDigits? 8 digits
  | '0' :: 'b' :: digits => natOfDigits? 2 digits
  | _ => if hasLeadingZero cs then none else natOfDigits? 10 cs

/-- The text without a plus sign in front. -/
def dropPlus (cs : List Char) : List Char :=
  match cs with
  | '+' :: rest => rest
  | _ => cs

/-- The integer that the text spells, if it has at most 128 bits. -/
def integerOfText? (s : String) : Option Found :=
  match s.toList with
  | '-' :: cs => do
    let n ← magnitude? cs
    if n ≤ Nat.pow 2 63 then some (.integer (-(n : Int)))
    else if n ≤ Nat.pow 2 127 then some (.wideInteger (-(n : Int)))
    else none
  | cs => do
    let n ← magnitude? (dropPlus cs)
    if n < Nat.pow 2 64 then some (.integer n)
    else if n < Nat.pow 2 128 then some (.wideInteger n)
    else none

/-- The exponent part of a number, if the text is one or empty. -/
def exponentOfText? (cs : List Char) : Option Int :=
  match cs with
  | [] => some 0
  | e :: digits =>
    if e = 'e' || e = 'E' then
      match digits with
      | '-' :: digits => (natOfDigits? 10 digits).map fun n => -(n : Int)
      | _ => (natOfDigits? 10 (dropPlus digits)).map fun n => (n : Int)
    else none

/-- The number that the text spells: digits, which may have a point among them, and an exponent. -/
def decimalOfText? (negative : Bool) (cs : List Char) : Option Binary64 := do
  let whole := cs.takeWhile Char.isDigit
  let rest := cs.drop whole.length
  let (fraction, rest) :=
    match rest with
    | '.' :: rest =>
      let fraction := rest.takeWhile Char.isDigit
      (fraction, rest.drop fraction.length)
    | _ => ([], rest)
  let m ← natOfDigits? 10 (whole ++ fraction)
  let e ← exponentOfText? rest
  some (.ofDecimal negative m (e - fraction.length))

/-- The number that the text spells, as a double. A text that stands for no finite number is none,
unless it is a spelling of infinity or of no number. -/
def floatOfText? (s : String) : Option Binary64 :=
  if s ∈ [".inf", ".Inf", ".INF", "+.inf", "+.Inf", "+.INF"] then some (.infinity false)
  else if s ∈ ["-.inf", "-.Inf", "-.INF"] then some (.infinity true)
  else if s ∈ [".nan", ".NaN", ".NAN"] then some .nan
  else
    let x :=
      match s.toList with
      | '-' :: cs => decimalOfText? true cs
      | cs => decimalOfText? false (dropPlus cs)
    x.filter Binary64.isFinite

/-- The text without a sign in front. -/
def dropSign (cs : List Char) : List Char :=
  match cs with
  | '-' :: rest | '+' :: rest => rest
  | _ => cs

/-- What a plain scalar without a tag stands for. -/
def readPlain (s : String) : Found :=
  if s.isEmpty || isNullText s then .null
  else
    match boolOfText? s with
    | some b => .bool b
    | none =>
      match integerOfText? s with
      | some n => n
      | none =>
        -- Such a text is no double either.
        if hasLeadingZero (dropSign s.toList) then .string s
        else
          match floatOfText? s with
          | some x => .float x
          | none => .string s

/-- The tag of the core schema with the given name. -/
def coreTag (name : String) : String := "tag:yaml.org,2002:" ++ name

/-- The name of a tag of the document's own, which begins with an exclamation mark. -/
def ownTag? (tag : Option String) : Option String :=
  match tag.map String.toList with
  | some ('!' :: name) => some (String.ofList name)
  | _ => none

/-- What a scalar stands for under its tag. -/
def readScalar (tag : Option String) (text : String) (style : ScalarStyle) :
    Except Mismatch Found :=
  let plain := if style = .plain then readPlain text else .string text
  let need (x : Option Found) (expected : String) : Except Mismatch Found :=
    match x with
    | some x => pure x
    | none => throw (.invalidValue (.string text) expected)
  match tag with
  | none => pure plain
  | some tag =>
    if tag = coreTag "bool" then need ((boolOfText? text).map .bool) "a boolean"
    else if tag = coreTag "int" then need (integerOfText? text) "an integer"
    else if tag = coreTag "float" then need ((floatOfText? text).map .float) "a float"
    else if tag = coreTag "null" then
      need (if isNullText text then some .null else none) "null"
    else if (ownTag? (some tag)).isSome then pure plain
    else pure (.string text)

end ProviderAssets.Yaml
