import ProviderAssets.Json.Value
import ProviderAssets.Yaml.Cursor
import ProviderAssets.Yaml.Scalar

/-!
# Writing values

A JSON value is written as a document of one block per line. A text is written plainly where it
reads back as itself, between quotes where it would not, and as a literal block where it has line
breaks. The sequence under a key stands at the indentation of the key.
-/

namespace ProviderAssets.Yaml.Printer

/-- Characters that stand for themselves in a document; all others need an escape. -/
def isShown (c : Char) : Bool :=
  let n := c.toNat
  n = 0x0A || (0x20 ≤ n && n ≤ 0x7E) || (0xA0 ≤ n && n ≤ 0xFFFD && n ≠ 0xFEFF) || 0x10000 ≤ n

/-- What the characters of a text allow of its spelling. -/
structure Features where
  /-- The text has a line break. -/
  multiline : Bool
  /-- The text may be written without quotes. -/
  plainAllowed : Bool
  /-- The text may be written between single quotes. -/
  singleAllowed : Bool
  /-- The text may be written as a literal block. -/
  literalAllowed : Bool

/-- Whether the first character makes the text more than a plain scalar. -/
def isLeadingIndicator (c : Char) (beforeBlank : Bool) : Bool :=
  c ∈ ['#', ',', '[', ']', '{', '}', '&', '*', '!', '|', '>', '\x27', '"', '%', '@', '\x60'] ||
    ((c = '?' || c = ':' || c = '-') && beforeBlank)

/-- Whether a later character does: a colon before a blank, or a number sign after one. -/
def hasInnerIndicator : List Char → Bool
  | a :: b :: rest =>
    (b = ':' && isBlankOrEnd (rest.headD '\x00')) || (b = '#' && isBlankOrEnd a) ||
      hasInnerIndicator (b :: rest)
  | _ => false

/-- Whether two neighbours have the given properties, in this order. -/
def hasPair (p q : Char → Bool) : List Char → Bool
  | a :: b :: rest => (p a && q b) || hasPair p q (b :: rest)
  | _ => false

/-- Whether the text begins like a document indicator. -/
def beginsDocument : List Char → Bool
  | '-' :: '-' :: '-' :: _ | '.' :: '.' :: '.' :: _ => true
  | _ => false

/-- The features of a text that is not empty. -/
def features (cs : List Char) : Features :=
  let isSpace (c : Char) : Bool := c = ' '
  let first := cs.headD '\x00'
  let last := cs.getLastD '\x00'
  let indicator :=
    beginsDocument cs || isLeadingIndicator first (isBlankOrEnd ((cs.drop 1).headD '\x00')) ||
      hasInnerIndicator cs
  let multiline := cs.any isBreak
  let special := hasPair isSpace isBreak cs || !cs.all isShown
  let edge := isSpace first || isBreak first || isSpace last || isBreak last
  let afterBreak := hasPair isBreak isSpace cs
  { multiline
    plainAllowed := !(indicator || multiline || special || edge || afterBreak)
    singleAllowed := !(special || afterBreak)
    literalAllowed := !(special || isSpace last) }

/-- The spelling that a text asks for, before its characters are looked at: a literal block if it
has a line feed, quotes if it would be read as something other than a text. -/
def preferredStyle (s : String) : ScalarStyle :=
  if s.toList.contains '\n' then .literal
  else
    match readPlain s with
    | .string _ => if hasLeadingZero (dropSign s.toList) then .singleQuoted else .plain
    | _ => .singleQuoted

/-- The spelling of a text. -/
def style (s : String) : ScalarStyle :=
  if s.isEmpty then .singleQuoted
  else
    let f := features s.toList
    let quoted := if f.singleAllowed then ScalarStyle.singleQuoted else .doubleQuoted
    match preferredStyle s with
    | .plain => if f.plainAllowed then .plain else quoted
    | .literal => if f.literalAllowed then .literal else .doubleQuoted
    | _ => quoted

/-- Spaces. -/
def spaces (n : Nat) : List Char := List.replicate n ' '

/-- The upper-case hexadecimal digits of a number, with zeros in front up to `width` places. -/
def hexPadded (width n : Nat) : List Char :=
  let digits := (Nat.toDigits 16 n).map Char.toUpper
  List.replicate (width - digits.length) '0' ++ digits

/-- An escape between double quotes, for a character of the basic plane. -/
def escaped (c : Char) : List Char :=
  '\\' ::
    match c with
    | '\x00' => ['0']
    | '\x07' => ['a']
    | '\x08' => ['b']
    | '\t' => ['t']
    | '\n' => ['n']
    | '\x0b' => ['v']
    | '\x0c' => ['f']
    | '\r' => ['r']
    | '\x1b' => ['e']
    | '"' => ['"']
    | '\\' => ['\\']
    | '\x85' => ['N']
    | '\xa0' => ['_']
    | '\u2028' => ['L']
    | '\u2029' => ['P']
    | c =>
      let n := c.toNat
      if n ≤ 0xFF then 'x' :: hexPadded 2 n else 'u' :: hexPadded 4 n

/-- The text between double quotes. -/
def doubleQuoted (cs : List Char) : List Char :=
  '"' :: cs.flatMap (fun c =>
    if !isShown c || isBreak c || c = '"' || c = '\\' then escaped c else [c]) ++ ['"']

/-- The characters between single quotes, where a quote is written twice. After a line separator,
as `broken` says, the next line begins with the indentation. -/
def singleQuotedChars (indent : Nat) (broken : Bool) : List Char → List Char
  | [] => if broken then spaces indent else []
  | c :: rest =>
    if isBreak c then c :: singleQuotedChars indent true rest
    else
      (if broken then spaces indent else []) ++ (if c = '\x27' then [c, c] else [c]) ++
        singleQuotedChars indent false rest

/-- The text between single quotes. -/
def singleQuoted (indent : Nat) (cs : List Char) : List Char :=
  '\x27' :: singleQuotedChars indent false cs ++ ['\x27']

/-- The indicators of a literal block: its indentation, if the text begins with white space, and
what becomes of the line breaks at its end. -/
def literalHints (cs : List Char) : List Char :=
  -- White space at the beginning would else count as indentation.
  let start := match cs with
    | c :: _ => if c = ' ' || isBreak c then ['2'] else []
    | [] => []
  let stop := match cs.reverse with
    | a :: b :: _ => if !isBreak a then ['-'] else if isBreak b then ['+'] else []
    | [a] => if isBreak a then ['+'] else ['-']
    | [] => ['-']
  start ++ stop

/-- The lines of a literal block; `broken` says that a line is about to begin. -/
def literalChars (indent : Nat) (broken : Bool) : List Char → List Char
  | [] => []
  | c :: rest =>
    if isBreak c then c :: literalChars indent true rest
    else (if broken then spaces indent else []) ++ c :: literalChars indent false rest

/-- The text as a literal block. -/
def literal (indent : Nat) (cs : List Char) : List Char :=
  '|' :: literalHints cs ++ '\n' :: literalChars indent true cs

/-- A text whose further lines begin at `indent`. -/
def string (indent : Nat) (s : String) : List Char :=
  match style s with
  | .plain => s.toList
  | .doubleQuoted => doubleQuoted s.toList
  | .literal | .folded => literal indent s.toList
  | .singleQuoted => singleQuoted indent s.toList

/-- A number. -/
def number : Json.Number → String
  | .integer n => toString n
  | .float x => x.render .compact

/-- The line with a break at its end, unless it ends in one. -/
def endLine (cs : List Char) : List Char :=
  match cs.getLast? with
  | some c => if isBreak c then cs else cs ++ ['\n']
  | none => ['\n']

/-- Whether a key can stand on a line with its value: it has one line and at most 128 bytes. -/
def isSimpleKey (key : String) : Bool := !key.toList.any isBreak && key.utf8ByteSize ≤ 128

/-- Blocks of lines under one another, at an indentation that the first one has already. -/
def joinBlocks (indent : Nat) : List (List Char) → List Char
  | [] => []
  | b :: rest => b ++ rest.flatMap (spaces indent ++ ·)

mutual

/-- A value that is no collection, or an empty one, and whose further lines begin at `indent`. -/
def inline (indent : Nat) : Json.Value → List Char
  | .null => "null".toList
  | .bool b => (if b then "true" else "false").toList
  | .number n => (number n).toList
  | .string s => string indent s
  | .array _ => ['[', ']']
  | .object _ => ['{', '}']

/-- What follows the hyphen, or the colon on a line of its own, at indentation `indent`. -/
def nested (indent : Nat) : Json.Value → List Char
  | .array (x :: xs) => ' ' :: joinBlocks (indent + 2) (itemBlocks (indent + 2) (x :: xs))
  | .object (f :: fs) => ' ' :: joinBlocks (indent + 2) (fieldBlocks (indent + 2) (f :: fs))
  | v => endLine (' ' :: inline (indent + 2) v)

/-- What follows the colon after a key at indentation `indent`. -/
def fieldValue (indent : Nat) : Json.Value → List Char
  -- The items stand at the indentation of the key, the fields of a mapping further right.
  | .array (x :: xs) => '\n' :: (itemBlocks indent (x :: xs)).flatMap (spaces indent ++ ·)
  | .object (f :: fs) =>
    '\n' :: (fieldBlocks (indent + 2) (f :: fs)).flatMap (spaces (indent + 2) ++ ·)
  | v => endLine (' ' :: inline (indent + 2) v)

/-- The items of a sequence at indentation `indent`, each without its first indentation. -/
def itemBlocks (indent : Nat) : List Json.Value → List (List Char)
  | [] => []
  | x :: xs => ('-' :: nested indent x) :: itemBlocks indent xs

/-- The fields of a mapping at indentation `indent`, each without its first indentation. -/
def fieldBlocks (indent : Nat) : List (String × Json.Value) → List (List Char)
  | [] => []
  | (key, v) :: rest =>
    let name := string (indent + 2) key
    (if isSimpleKey key then name ++ ':' :: fieldValue indent v
      else '?' :: endLine (' ' :: name) ++ spaces indent ++ ':' :: nested indent v) ::
      fieldBlocks indent rest

end

/-- A document. -/
def document : Json.Value → List Char
  | .array (x :: xs) => joinBlocks 0 (itemBlocks 0 (x :: xs))
  | .object (f :: fs) => joinBlocks 0 (fieldBlocks 0 (f :: fs))
  | v => endLine (inline 2 v)

end ProviderAssets.Yaml.Printer

namespace ProviderAssets.Yaml

/-- The text of a value, ending in a line break. -/
def render (v : Json.Value) : String := String.ofList (Printer.document v)

end ProviderAssets.Yaml
