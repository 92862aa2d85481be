import ProviderAssets.Yaml.Fault

/-!
# Reading characters

A cursor stands in a text and holds the characters that are still to be read. `Scan` is a
computation that moves a cursor and may meet a fault. Past the end of the text a cursor shows NUL,
which no text holds.
-/

namespace ProviderAssets.Yaml

/-- The space and the tab. -/
def isBlank (c : Char) : Bool := c = ' ' || c = '\t'

/-- Line breaks: line feed, carriage return, next line, line separator, paragraph separator. -/
def isBreak (c : Char) : Bool :=
  c = '\n' || c = '\r' || c = '\x85' || c = '\u2028' || c = '\u2029'

/-- Line breaks and the end of the text. -/
def isBreakOrEnd (c : Char) : Bool := isBreak c || c = '\x00'

/-- Blanks, line breaks and the end of the text. -/
def isBlankOrEnd (c : Char) : Bool := isBlank c || isBreakOrEnd c

/-- The characters of names: ASCII letters and digits, the underscore and the hyphen. -/
def isNameChar (c : Char) : Bool := c.isAlphanum || c = '_' || c = '-'

/-- A place in a text, with what comes after it. -/
structure Cursor where
  /-- The characters from there on. -/
  rest : List Char
  /-- The place. -/
  mark : Mark
  /-- How many characters the whole text has. -/
  size : Nat

namespace Cursor

/-- A cursor at the beginning of a text. -/
def ofChars (cs : List Char) : Cursor := ⟨cs, Mark.start, cs.length⟩

/-- The character `n` places ahead; NUL past the end. -/
def peek (c : Cursor) (n : Nat) : Char := (c.rest[n]?).getD '\x00'

/-- Passes over `n` characters of the line. -/
def skip (c : Cursor) (n : Nat) : Cursor :=
  { c with rest := c.rest.drop n, mark := c.mark.advance n }

/-- Passes over a line break and gives the character it stands for in a scalar: a line feed, or the
line or paragraph separator itself. At the end of the text there is none. -/
def takeLine (c : Cursor) : Option Char × Cursor :=
  match c.rest with
  | '\r' :: '\n' :: rest => (some '\n', { c with rest, mark := c.mark.nextLine 2 })
  | b :: rest =>
    (some (if b = '\u2028' || b = '\u2029' then b else '\n'),
      { c with rest, mark := c.mark.nextLine 1 })
  | [] => (none, c)

/-- Takes the longest run of characters with the given property, none of them a line break. -/
def takeWhile (p : Char → Bool) (c : Cursor) : List Char × Cursor :=
  let taken := c.rest.takeWhile p
  (taken, c.skip taken.length)

/-- Whether a document indicator stands here: three hyphens or three full stops at the beginning of
a line, with nothing joined to them. -/
def atDocumentIndicator (c : Cursor) : Bool :=
  c.mark.column = 0 &&
    (match c.rest with
    | '-' :: '-' :: '-' :: _ => true
    | '.' :: '.' :: '.' :: _ => true
    | _ => false) &&
    isBlankOrEnd (c.peek 3)

end Cursor

/-- A computation that reads characters and may meet a fault. -/
abbrev Scan := StateT Cursor (Except Fault)

namespace Scan

/-- The character `n` places ahead. -/
def peek (n : Nat := 0) : Scan Char := return (← get).peek n

/-- The place reached. -/
def mark : Scan Mark := return (← get).mark

/-- Passes over `n` characters of the line. -/
def skip (n : Nat := 1) : Scan Unit := modify (·.skip n)

/-- Takes a line break, as `Cursor.takeLine`. -/
def takeLine : Scan (Option Char) := modifyGet Cursor.takeLine

/-- Takes the longest run of characters with the given property. -/
def takeWhile (p : Char → Bool) : Scan (List Char) := modifyGet (Cursor.takeWhile p)

/-- Passes over the longest run of characters with the given property. -/
def skipWhile (p : Char → Bool) : Scan Unit := discard (takeWhile p)

/-- The number of characters still to be read. -/
def remaining : Scan Nat := return (← get).size - (← mark).index

/-- Fails at the place reached, in an activity that began at `start`. -/
def fail {α : Type} (activity : Activity) (start : Mark) (problem : Malformed) : Scan α := do
  throw (.malformed problem (← mark) (some (activity, start)))

/-- Fails at the place reached. -/
def failHere {α : Type} (problem : Malformed) : Scan α := do
  throw (.malformed problem (← mark) none)

/-- Passes over the blanks and the comment at the end of a line, and over its break. -/
def finishLine (activity : Activity) (start : Mark) : Scan Unit := do
  skipWhile isBlank
  if (← peek) = '#' then skipWhile (!isBreakOrEnd ·)
  if !isBreakOrEnd (← peek) then fail activity start .lineEnd
  if isBreak (← peek) then discard takeLine

end Scan

end ProviderAssets.Yaml
