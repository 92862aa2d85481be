import ProviderAssets.Yaml.Cursor
import ProviderAssets.Yaml.Token

/-!
# Scalars

Reading plain, quoted and block scalars. White space between two words of a plain or quoted scalar
is a `Gap`: without a line break it is kept, with one it is folded. Block scalars keep their lines,
or fold them when they are written with `>`.
-/

namespace ProviderAssets.Yaml

/-- The white space between two words. Lists are held in reverse. -/
structure Gap where
  /-- The blanks before the first line break. -/
  blanks : List Char := []
  /-- Whether there is a line break. -/
  broken : Bool := false
  /-- The character of the first line break, if it has one. -/
  first : Option Char := none
  /-- The characters of the line breaks after it. -/
  later : List Char := []

namespace Gap

/-- The characters a gap stands for. A single line feed becomes a space, and of several the first
is dropped; an escaped line break stands for nothing. -/
def text (g : Gap) : List Char :=
  if g.broken then
    match g.first with
    | some '\n' => if g.later.isEmpty then [' '] else g.later.reverse
    | some c => c :: g.later.reverse
    | none => g.later.reverse
  else g.blanks.reverse

/-- The gap with one more blank, which counts only before the first break. -/
def addBlank (g : Gap) (c : Char) : Gap :=
  if g.broken then g else { g with blanks := c :: g.blanks }

/-- The gap with one more line break. -/
def addBreak (g : Gap) (c : Option Char) : Gap :=
  if g.broken then { g with later := c.toList ++ g.later }
  else { blanks := [], broken := true, first := c, later := [] }

end Gap

namespace Scan

/-- Reads the white space that follows. On the further lines of a plain scalar no tab may stand
before column `floor`. -/
def gap (start : Mark) (floor : Nat) : Nat → Gap → Scan Gap
  | 0, g => pure g
  | fuel + 1, g => do
    let c ← peek
    if isBlank c then
      if g.broken && c = '\t' && (← mark).column < floor then
        fail .plainScalar start .plainTab
      skip
      gap start floor fuel (g.addBlank c)
    else if isBreak c then
      let b ← takeLine
      gap start floor fuel (g.addBreak b)
    else pure g

/-- Whether a plain scalar ends before the character `c` with `next` after it. -/
def endsPlain (inFlow : Bool) (c next : Char) : Bool :=
  (c = ':' && isBlankOrEnd next) ||
    (inFlow && (c = ',' || c = '[' || c = ']' || c = '{' || c = '}'))

/-- Reads a word of a plain scalar, in reverse. -/
def plainWord (start : Mark) (inFlow : Bool) : Nat → List Char → Scan (List Char)
  | 0, word => pure word
  | fuel + 1, word => do
    let c ← peek
    let next ← peek 1
    if isBlankOrEnd c then pure word
    else if inFlow && c = ':' &&
        (next = ',' || next = '?' || next = '[' || next = ']' || next = '{' || next = '}') then
      fail .plainScalar start .plainColon
    else if endsPlain inFlow c next then pure word
    else
      skip
      plainWord start inFlow fuel (c :: word)

/-- Reads the words of a plain scalar after the text `text`, which is held in reverse and ends at
`stop`. Gives the whole text in reverse, its end, and whether a line break follows it. -/
def plainWords (start : Mark) (floor : Nat) (inFlow : Bool) :
    Nat → List Char → Gap → Mark → Scan (List Char × Mark × Bool)
  | 0, text, g, stop => pure (text, stop, g.broken)
  | fuel + 1, text, g, stop => do
    if (← get).atDocumentIndicator || (← peek) = '#' then pure (text, stop, g.broken)
    else
      let word ← plainWord start inFlow (← remaining) []
      let (text, g, stop) ←
        if word.isEmpty then pure (text, g, stop)
        else pure (word ++ g.text.reverse ++ text, ({} : Gap), ← mark)
      let c ← peek
      if isBlank c || isBreak c then
        let g ← gap start floor (← remaining) g
        -- What stands further left on a later line belongs to a block around.
        if !inFlow && (← mark).column < floor then pure (text, stop, g.broken)
        else plainWords start floor inFlow fuel text g stop
      else pure (text, stop, g.broken)

/-- Reads a plain scalar, inside brackets or not. `floor` is the least column of content in the
block around it, before which a further line outside brackets ends the scalar. Gives the token and
whether a line break follows it. -/
def plainScalar (floor : Nat) (inFlow : Bool) : Scan (Lexeme × Bool) := do
  let start ← mark
  let (text, stop, broken) ← plainWords start floor inFlow ((← remaining) + 1) [] {} start
  return (⟨.scalar (String.ofList text.reverse) .plain, start, stop⟩, broken)

/-- The value of a hexadecimal digit. -/
def hexValue? (c : Char) : Option Nat :=
  if c.isDigit then some (c.toNat - '0'.toNat)
  else if 'a' ≤ c ∧ c ≤ 'f' then some (c.toNat - 'a'.toNat + 10)
  else if 'A' ≤ c ∧ c ≤ 'F' then some (c.toNat - 'A'.toNat + 10)
  else none

/-- The character that the letter after a backslash stands for. -/
def escapeChar? : Char → Option Char
  | '0' => some '\x00'
  | 'a' => some '\x07'
  | 'b' => some '\x08'
  | 't' => some '\t'
  | '\t' => some '\t'
  | 'n' => some '\n'
  | 'v' => some '\x0b'
  | 'f' => some '\x0c'
  | 'r' => some '\r'
  | 'e' => some '\x1b'
  | ' ' => some ' '
  | '"' => some '"'
  | '/' => some '/'
  | '\\' => some '\\'
  | 'N' => some '\x85'
  | '_' => some '\xa0'
  | 'L' => some '\u2028'
  | 'P' => some '\u2029'
  | _ => none

/-- The number of hexadecimal digits that follow the letter after a backslash. -/
def escapeWidth : Char → Nat
  | 'x' => 2
  | 'u' => 4
  | 'U' => 8
  | _ => 0

/-- Reads an escape of a double-quoted scalar, from its backslash on. -/
def escape (start : Mark) : Scan Char := do
  let letter ← peek 1
  match escapeChar? letter, escapeWidth letter with
  | some c, _ =>
    skip 2
    pure c
  | none, 0 => fail .quotedScalarEscape start .escapeLetter
  | none, width =>
    skip 2
    let digits := (← get).rest.take width
    match digits.mapM hexValue? with
    | none => fail .quotedScalarEscape start .escapeDigits
    | some values =>
      if values.length < width then fail .quotedScalarEscape start .escapeDigits
      else
        let n := values.foldl (16 * · + ·) 0
        if h : n.isValidChar then
          skip width
          pure (Char.ofNatAux n h)
        else fail .quotedScalarEscape start .escapeCode

/-- Reads a word of a quoted scalar after the text `text`, both in reverse. The word ends before
white space, the closing quote or an escaped line break, which is passed over; gives also whether
there was one. -/
def quotedWord (start : Mark) (quote : Char) : Nat → List Char → Scan (List Char × Bool)
  | 0, text => pure (text, false)
  | fuel + 1, text => do
    let c ← peek
    let next ← peek 1
    if isBlankOrEnd c then pure (text, false)
    else if c = quote then
      if quote = '\x27' && next = quote then
        skip 2
        quotedWord start quote fuel (quote :: text)
      else pure (text, false)
    else if quote = '"' && c = '\\' then
      if isBreak next then
        skip
        discard takeLine
        pure (text, true)
      else
        let e ← escape start
        quotedWord start quote fuel (e :: text)
    else
      skip
      quotedWord start quote fuel (c :: text)

/-- Reads the words of a quoted scalar after the text `text`, up to the closing quote. -/
def quotedWords (start : Mark) (quote : Char) : Nat → List Char → Scan (List Char)
  | 0, text => pure text
  | fuel + 1, text => do
    if (← get).atDocumentIndicator then fail .quotedScalar start .documentIndicator
    if (← peek) = '\x00' then fail .quotedScalar start .endOfText
    let (text, escaped) ← quotedWord start quote (← remaining) text
    if (← peek) = quote then pure text
    else
      let g ← gap start 0 (← remaining) { broken := escaped }
      quotedWords start quote fuel (g.text.reverse ++ text)

/-- Reads a scalar between single quotes, where a quote is written twice, or between double quotes,
where a backslash begins an escape. -/
def quotedScalar (style : ScalarStyle) : Scan Lexeme := do
  let start ← mark
  let quote ← peek
  skip
  let text ← quotedWords start quote ((← remaining) + 1) []
  skip
  return ⟨.scalar (String.ofList text.reverse) style, start, ← mark⟩

/-- What becomes of the line breaks at the end of a block scalar. -/
inductive Chomping where
  | clip | strip | keep
  deriving DecidableEq

/-- Reads the chomping indicator of a block scalar, if it comes next. -/
def chomping? : Scan (Option Chomping) := do
  match ← peek with
  | '+' =>
    skip
    pure (some .keep)
  | '-' =>
    skip
    pure (some .strip)
  | _ => pure none

/-- Reads the indentation indicator of a block scalar, if it comes next. -/
def indentation? (start : Mark) : Scan (Option Nat) := do
  let c ← peek
  if c.isDigit then
    if c = '0' then fail .blockScalar start .zeroIndentation
    skip
    pure (some (c.toNat - '0'.toNat))
  else pure none

/-- Reads the indicators of a block scalar, in either order. -/
def blockHeader (start : Mark) : Scan (Chomping × Option Nat) := do
  match ← chomping? with
  | some chomping => return (chomping, ← indentation? start)
  | none =>
    let width ← indentation? start
    if width.isNone then return (.clip, none)
    return ((← chomping?).getD .clip, width)

/-- Reads the blank lines of a block scalar and the indentation of the line after them, which is at
most `indent`, or any while `indent` is not known. Gives the widest indentation met, the line breaks
in reverse after `breaks`, and the end of the last break. -/
def blankLines (start : Mark) (indent : Option Nat) :
    Nat → Nat → List Char → Mark → Scan (Nat × List Char × Mark)
  | 0, widest, breaks, stop => pure (widest, breaks, stop)
  | fuel + 1, widest, breaks, stop => do
    let spaces := ((← get).rest.takeWhile (· = ' ')).length
    let before := (← mark).column
    skip ((indent.map (min spaces <| · - before)).getD spaces)
    let column := (← mark).column
    let widest := max widest column
    let c ← peek
    if c = '\t' && indent.all (column < ·) then fail .blockScalar start .tabIndentation
    if isBreak c then
      let b ← takeLine
      blankLines start indent fuel widest (b.toList ++ breaks) (← mark)
    else pure (widest, breaks, stop)

/-- The text of a block scalar so far. Lists are held in reverse. -/
structure BlockText where
  /-- The text, up to its last line. -/
  text : List Char := []
  /-- The break after its last line. -/
  lineBreak : Option Char := none
  /-- The blank lines after that. -/
  blank : List Char := []
  /-- Whether the last line begins with a blank. -/
  afterBlank : Bool := false

/-- Reads the lines of a block scalar that stand at column `indent`. Gives the text and its end. -/
def blockLines (start : Mark) (isLiteral : Bool) (indent : Nat) :
    Nat → BlockText → Mark → Scan (BlockText × Mark)
  | 0, b, stop => pure (b, stop)
  | fuel + 1, b, stop => do
    let c ← peek
    if (← mark).column = indent && c ≠ '\x00' then
      let join :=
        if !isLiteral && b.lineBreak = some '\n' && !b.afterBlank && !isBlank c then
          if b.blank.isEmpty then [' '] else []
        else b.lineBreak.toList
      let line ← takeWhile (!isBreakOrEnd ·)
      let lineBreak ← takeLine
      let (_, blank, stop) ← blankLines start (some indent) ((← remaining) + 1) 0 [] (← mark)
      blockLines start isLiteral indent fuel
        { text := line.reverse ++ b.blank ++ join ++ b.text, lineBreak, blank,
          afterBlank := isBlank c } stop
    else pure (b, stop)

/-- Reads a block scalar. `parent` is the least column of content in the block around it. -/
def blockScalar (isLiteral : Bool) (parent : Nat) : Scan Lexeme := do
  let start ← mark
  skip
  let (chomping, width) ← blockHeader start
  finishLine .blockScalar start
  -- The indicator counts from the indentation of the block around, which is one less than `parent`,
  -- and zero outside of all blocks.
  let known := width.map (parent - 1 + ·)
  let (widest, blank, stop) ← blankLines start known ((← remaining) + 1) 0 [] (← mark)
  -- Without an indicator, the blank lines and the first line decide.
  let indent := known.getD (max (max widest parent) 1)
  let (b, stop) ← blockLines start isLiteral indent ((← remaining) + 1) { blank } stop
  let text :=
    match chomping with
    | .strip => b.text
    | .clip => b.lineBreak.toList ++ b.text
    | .keep => b.blank ++ b.lineBreak.toList ++ b.text
  let style := if isLiteral then ScalarStyle.literal else .folded
  return ⟨.scalar (String.ofList text.reverse) style, start, stop⟩

end Scan

end ProviderAssets.Yaml
