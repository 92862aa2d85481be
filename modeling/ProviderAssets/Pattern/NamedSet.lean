import ProviderAssets.Pattern.Basic
import ProviderAssets.Text.Folding
import ProviderAssets.Text.Script

/-!
# Named sets of characters

The sets that patterns know by a letter or a name: digits, words and white space, the classes of
ASCII characters, and the properties of the Unicode character database.
-/

namespace ProviderAssets.CharSet

open Text (Category category)

/-- No character. -/
def none : CharSet := fun _ => false

/-- The characters from one to another. -/
def range (first last : Char) : CharSet := fun c => first ≤ c && c ≤ last

/-- The character `c`. -/
def single (c : Char) : CharSet := fun x => x = c

/-- The other characters. -/
def complement (s : CharSet) : CharSet := fun c => !s c

/-- The characters of either set. -/
def union (s t : CharSet) : CharSet := fun c => s c || t c

/-- The characters of both sets. -/
def inter (s t : CharSet) : CharSet := fun c => s c && t c

/-- The characters of the first set that are not in the second. -/
def diff (s t : CharSet) : CharSet := fun c => s c && !t c

/-- The characters of exactly one of the sets. -/
def symmDiff (s t : CharSet) : CharSet := fun c => s c != t c

/-- With every character its case variants too. -/
def anyCase (s : CharSet) : CharSet := fun c => (Text.caseVariants c).any s

/-- With every ASCII letter its other case too. -/
def anyCaseAscii (s : CharSet) : CharSet := fun c => s c || s c.toLower || s c.toUpper

/-- Whether there is none but ASCII characters among the first 256. -/
def isAsciiOnly (s : CharSet) : Bool := (List.range 128).all fun i => !s (Char.ofNat (128 + i))

/-- ASCII characters of words. -/
def asciiWord : CharSet := fun c => c.isAlphanum || c = '_'

/-- ASCII white space. -/
def asciiSpace : CharSet := fun c => c = ' ' || ('\x09' ≤ c && c ≤ '\x0d')

/-- ASCII punctuation. -/
def asciiPunct : CharSet := fun c => '!' ≤ c && c ≤ '~' && !c.isAlphanum

/-- The ASCII set with the given name. -/
def asciiNamed? : String → Option CharSet
  | "alnum" => some (·.isAlphanum)
  | "alpha" => some (·.isAlpha)
  | "ascii" => some (·.toNat < 128)
  | "blank" => some fun c => c = ' ' || c = '\t'
  | "cntrl" => some fun c => c.toNat < 32 || c.toNat = 127
  | "digit" => some (·.isDigit)
  | "graph" => some fun c => '!' ≤ c && c ≤ '~'
  | "lower" => some (·.isLower)
  | "print" => some fun c => ' ' ≤ c && c ≤ '~'
  | "punct" => some asciiPunct
  | "space" => some asciiSpace
  | "upper" => some (·.isUpper)
  | "word" => some asciiWord
  | "xdigit" => some fun c => c.isDigit || ('a' ≤ c && c ≤ 'f') || ('A' ≤ c && c ≤ 'F')
  | _ => Option.none

/-- The categories under the names that patterns may use. -/
def categoryNames : List (List String × List Category) :=
  [(["lc", "casedletter"], [.lu, .ll, .lt]), (["pe", "closepunctuation"], [.pe]),
    (["pc", "connectorpunctuation"], [.pc]), (["cc", "control", "cntrl"], [.cc]),
    (["sc", "currencysymbol"], [.sc]), (["pd", "dashpunctuation"], [.pd]),
    (["nd", "decimalnumber", "digit"], [.nd]), (["me", "enclosingmark"], [.me]),
    (["pf", "finalpunctuation"], [.pf]), (["cf", "format"], [.cf]),
    (["pi", "initialpunctuation"], [.pi]), (["l", "letter"], [.lu, .ll, .lt, .lm, .lo]),
    (["nl", "letternumber"], [.nl]), (["zl", "lineseparator"], [.zl]),
    (["ll", "lowercaseletter"], [.ll]), (["m", "mark", "combiningmark"], [.mn, .mc, .me]),
    (["sm", "mathsymbol"], [.sm]), (["lm", "modifierletter"], [.lm]),
    (["sk", "modifiersymbol"], [.sk]), (["mn", "nonspacingmark"], [.mn]),
    (["n", "number"], [.nd, .nl, .no]), (["ps", "openpunctuation"], [.ps]),
    (["c", "other"], [.cc, .cf, .cs, .co, .cn]), (["lo", "otherletter"], [.lo]),
    (["no", "othernumber"], [.no]), (["po", "otherpunctuation"], [.po]),
    (["so", "othersymbol"], [.so]), (["zp", "paragraphseparator"], [.zp]),
    (["co", "privateuse"], [.co]),
    (["p", "punctuation", "punct"], [.pc, .pd, .ps, .pe, .pi, .pf, .po]),
    (["z", "separator"], [.zs, .zl, .zp]), (["zs", "spaceseparator"], [.zs]),
    (["mc", "spacingmark"], [.mc]), (["s", "symbol"], [.sm, .sc, .sk, .so]),
    (["lt", "titlecaseletter"], [.lt]), (["cn", "unassigned"], [.cn]),
    (["lu", "uppercaseletter"], [.lu])]

/-- The set of a general category. -/
def ofCategoryName? : String → Option CharSet
  | "any" => some fun _ => true
  | "assigned" => some fun c => category c ≠ .cn
  | "ascii" => some (·.toNat < 128)
  | name =>
    (categoryNames.find? fun (names, _) => name ∈ names).map fun (_, cs) => fun c => category c ∈ cs

/-- The set of a script. -/
def ofScriptName? (name : String) : Option CharSet :=
  (Text.Script.ofName? name).map fun code => fun c => Text.script c = code

/-- The set of a property that characters have or lack. -/
def ofPropertyName? : String → Option CharSet
  | "alphabetic" | "alpha" => some Text.isAlphabetic
  | "asciihexdigit" | "ahex" => asciiNamed? "xdigit"
  | "cased" => some Text.isCased
  | "caseignorable" | "ci" => some Text.isCaseIgnorable
  | "graphemeextend" | "grext" => some Text.extendsGrapheme
  | "joincontrol" | "joinc" => some fun c => c = '\u200c' || c = '\u200d'
  | "lowercase" | "lower" => some Text.isLowercase
  | "uppercase" | "upper" => some Text.isUppercase
  | "whitespace" | "wspace" | "space" => some Text.isWhite
  | _ => Option.none

/-- A name as it is looked up: without capitals, blanks and separators, and without a leading
`is`. -/
def plainName (name : String) : String :=
  let letters := name.toList.filterMap fun c =>
    if c = ' ' ∨ c = '_' ∨ c = '-' then Option.none else some c.toLower
  match letters with
  | 'i' :: 's' :: rest => String.ofList (if rest = ['c'] then letters else rest)
  | _ => String.ofList letters

/-- The set that a name stands for. Where a property has the name of a category as its short form,
the category is meant. -/
def ofName? (name : String) : Option CharSet :=
  let name := plainName name
  (if name = "cf" ∨ name = "sc" ∨ name = "lc" then Option.none else ofPropertyName? name)
    <|> ofCategoryName? name <|> ofScriptName? name

/-- The set of the characters whose property has a value. -/
def ofNameAndValue? (name value : String) : Option CharSet :=
  match plainName name with
  | "generalcategory" | "gc" => ofCategoryName? (plainName value)
  | "script" | "sc" | "scriptextensions" | "scx" => ofScriptName? (plainName value)
  | _ => Option.none

end ProviderAssets.CharSet
