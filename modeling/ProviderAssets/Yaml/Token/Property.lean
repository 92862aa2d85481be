import ProviderAssets.Yaml.Token.Scalar

/-!
# Node properties and directives

Reading anchors, aliases, tags and the directives before a document. A tag is a handle, which a
directive may give a meaning, and a suffix.
-/

namespace ProviderAssets.Yaml.Scan

/-- Whether a name may end before the character. -/
def endsName (c : Char) : Bool :=
  isBlankOrEnd c || c = '?' || c = ':' || c = ',' || c = ']' || c = '}' || c = '%' || c = '@' ||
    c = '\x60'

/-- Reads the name of an anchor or alias after its indicator. -/
def name (activity : Activity) : Scan (String × Mark × Mark) := do
  let start ← mark
  skip
  let letters ← takeWhile isNameChar
  let stop ← mark
  if letters.isEmpty || !endsName (← peek) then fail activity start .anchorName
  return (String.ofList letters, start, stop)

/-- Reads an anchor. -/
def anchor : Scan Lexeme := do
  let (name, start, stop) ← name .anchorToken
  return ⟨.anchorName name, start, stop⟩

/-- Reads an alias. -/
def aliasToken : Scan Lexeme := do
  let (name, start, stop) ← name .aliasToken
  return ⟨.aliasName name, start, stop⟩

/-- The activity of reading the text of a tag, in a directive or before a node. -/
def tagTextActivity (inDirective : Bool) : Activity :=
  if inDirective then .tagDirectiveValue else .tagValue

/-- Reads a tag handle: an exclamation mark, or a name between two of them. Before a node the second
one may be missing; what was read is then the beginning of a tag without a named handle. -/
def tagHandle (inDirective : Bool) (start : Mark) : Scan (List Char) := do
  if (← peek) ≠ '!' then
    fail (if inDirective then .tagDirectiveStart else .tag) start .tagBang
  skip
  let letters ← takeWhile isNameChar
  if (← peek) = '!' then
    skip
    pure ('!' :: letters ++ ['!'])
  else
    if inDirective && !letters.isEmpty then fail .tagDirectiveHandle start .tagBang
    pure ('!' :: letters)

/-- Reads the bytes of one escaped character of a tag, `width` of them still missing once the first
has been read. -/
def escapedBytes (inDirective : Bool) (start : Mark) : Nat → Nat → List UInt8 → Scan (List UInt8)
  | 0, _, bytes => pure bytes
  | fuel + 1, missing, bytes => do
    let c ← peek
    let high ← peek 1
    let low ← peek 2
    match (if c = '%' then hexValue? high else none), hexValue? low with
    | some h, some l =>
      let byte := UInt8.ofNat (16 * h + l)
      let missing ←
        if bytes.isEmpty then
          match leadingWidth byte with
          | 0 => fail (tagTextActivity inDirective) start .tagLeadingOctet
          | width => pure (width - 1)
        else if byte &&& 0xC0 = 0x80 then pure (missing - 1)
        else fail (tagTextActivity inDirective) start .tagTrailingOctet
      skip 3
      if missing = 0 then pure (byte :: bytes)
      else escapedBytes inDirective start fuel missing (byte :: bytes)
    | _, _ => fail (tagTextActivity inDirective) start .tagEscape
where
  /-- The length of the sequence that a byte begins; zero if it begins none. -/
  leadingWidth (b : UInt8) : Nat :=
    if b &&& 0x80 = 0 then 1
    else if b &&& 0xE0 = 0xC0 then 2
    else if b &&& 0xF0 = 0xE0 then 3
    else if b &&& 0xF8 = 0xF0 then 4
    else 0

/-- Reads an escaped character of a tag. -/
def escapedChar (inDirective : Bool) (start : Mark) : Scan Char := do
  let bytes ← escapedBytes inDirective start 4 0 []
  let text := String.fromUTF8? ⟨bytes.reverse.toArray⟩
  return ((text.bind (·.toList.head?)).getD '\ufffd')

/-- The characters of tags. Commas and square brackets belong to them only where the tag is
delimited. -/
def isTagChar (delimited : Bool) (c : Char) : Bool :=
  isNameChar c ||
    c ∈ [';', '/', '?', ':', '@', '&', '=', '+', '$', '.', '%', '!', '~', '*', '\x27', '(', ')'] ||
    (delimited && (c = ',' || c = '[' || c = ']'))

/-- Reads the characters of a tag, in reverse. -/
def tagChars (delimited inDirective : Bool) (start : Mark) : Nat → List Char → Scan (List Char)
  | 0, text => pure text
  | fuel + 1, text => do
    let c ← peek
    if !isTagChar delimited c then pure text
    else if c = '%' then
      let e ← escapedChar inDirective start
      tagChars delimited inDirective start fuel (e :: text)
    else
      skip
      tagChars delimited inDirective start fuel (c :: text)

/-- Reads the text of a tag after the characters in `head`, of which the first is dropped. -/
def tagText (delimited inDirective : Bool) (head : List Char) (start : Mark) :
    Scan (List Char) := do
  let text ← tagChars delimited inDirective start ((← remaining) + 1) []
  if head.isEmpty && text.isEmpty then fail (tagTextActivity inDirective) start .tagText
  return head.tail ++ text.reverse

/-- Reads a tag: verbatim between angle brackets, or a handle with a suffix. The lone exclamation
mark is a suffix without a handle. -/
def tag (inFlow : Bool) : Scan Lexeme := do
  let start ← mark
  let (handle, suffix) ← do
    if (← peek 1) = '<' then
      skip 2
      let suffix ← tagText true false [] start
      if (← peek) ≠ '>' then fail .tag start .tagClose
      skip
      pure ([], suffix)
    else
      let handle ← tagHandle false start
      if handle.length > 1 && handle.getLast? = some '!' then
        pure (handle, ← tagText false false [] start)
      else
        match ← tagText false false handle start with
        | [] => pure ([], ['!'])
        | suffix => pure (['!'], suffix)
  let c ← peek
  if !isBlankOrEnd c && !(inFlow && c = ',') then fail .tag start .spaceOrLineEnd
  return ⟨.tag (String.ofList handle) (String.ofList suffix), start, ← mark⟩

/-- Reads one of the two numbers of a version, at most nine digits long. -/
def versionNumber (start : Mark) : Scan Nat := do
  let digits := ((← get).rest.takeWhile Char.isDigit)
  if digits.length > 9 then
    skip 9
    fail .versionDirective start .versionNumberLength
  skip digits.length
  if digits.isEmpty then fail .versionDirective start .versionNumberMissing
  return digits.foldl (fun n c => 10 * n + (c.toNat - '0'.toNat)) 0

/-- Reads the value of a version directive. -/
def versionValue (start : Mark) : Scan Token := do
  skipWhile isBlank
  let major ← versionNumber start
  if (← peek) ≠ '.' then fail .versionDirective start .versionSeparator
  skip
  let minor ← versionNumber start
  return .versionDirective major minor

/-- Reads the value of a tag directive: a handle and the text it stands for. -/
def tagDirectiveValue (start : Mark) : Scan Token := do
  skipWhile isBlank
  let handle ← tagHandle true start
  if !isBlank (← peek) then fail .tagDirective start .space
  skipWhile isBlank
  let text ← tagText true true [] start
  if !isBlankOrEnd (← peek) then fail .tagDirective start .spaceOrLineEnd
  return .tagDirective (String.ofList handle) (String.ofList text)

/-- Reads a directive with the rest of its line. -/
def directive : Scan Lexeme := do
  let start ← mark
  skip
  let letters ← takeWhile isNameChar
  if letters.isEmpty then fail .directive start .directiveNameMissing
  if !isBlankOrEnd (← peek) then fail .directive start .directiveNameCharacter
  let token ←
    match String.ofList letters with
    | "YAML" => versionValue start
    | "TAG" => tagDirectiveValue start
    | _ => fail .directive start .directiveName
  let stop ← mark
  finishLine .directive start
  return ⟨token, start, stop⟩

end ProviderAssets.Yaml.Scan
