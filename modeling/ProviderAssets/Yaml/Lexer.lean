import ProviderAssets.Yaml.Token.Property

/-!
# From characters to tokens

The lexer reads a text into tokens. Two things make it more than a list of scans. Indentation opens
and closes blocks: the columns of the open blocks are kept, and content further left closes them.
And a node is known to be a mapping key only when the colon after it is met: a place where a key may
begin is remembered as a `SimpleKey`, and the tokens that open the mapping are inserted there later.

A fault ends the reading. The tokens that can no longer turn out to be part of a key by then are
the ones that count; `Tokens` holds them with the fault.
-/

namespace ProviderAssets.Yaml

/-- A place where a mapping key may have begun. -/
structure SimpleKey where
  /-- The number of tokens before it. -/
  number : Nat
  /-- Where it is. -/
  mark : Mark
  /-- Whether only a key can stand there. -/
  required : Bool

/-- The state of the lexer. -/
structure Lexer where
  /-- The text still to be read. -/
  cursor : Cursor
  /-- The tokens read so far, latest first. -/
  lexemes : List Lexeme := []
  /-- How many these are. -/
  count : Nat := 0
  /-- The columns of the open blocks, innermost first. -/
  indents : List Nat := []
  /-- The possible key of the innermost bracket, or of the block. -/
  candidate : Option SimpleKey := none
  /-- Those of the brackets around it and of the block. -/
  outer : List (Option SimpleKey) := []
  /-- Whether a key may begin here. -/
  keyAllowed : Bool := true
  /-- Whether the end of the text has been read. -/
  finished : Bool := false

/-- A step of the lexer, which may meet a fault. -/
abbrev Lex := StateT Lexer (Except Fault)

/-- The tokens of a text up to the first fault. -/
structure Tokens where
  /-- The tokens, in order. -/
  lexemes : List Lexeme
  /-- The fault, if there is one. -/
  fault : Option Fault

namespace Lexer

/-- Whether the lexer is inside brackets. -/
def inFlow (l : Lexer) : Bool := !l.outer.isEmpty

/-- The least column of content in the innermost open block. -/
def floor (l : Lexer) : Nat :=
  match l.indents with
  | column :: _ => column + 1
  | [] => 0

/-- Runs a scan at the lexer's cursor. -/
def scan {α : Type} (s : Scan α) : Lex α := fun l => do
  let (a, cursor) ← s l.cursor
  return (a, { l with cursor })

/-- Adds a token at the end. -/
def push (x : Lexeme) : Lex Unit :=
  modify fun l => { l with lexemes := x :: l.lexemes, count := l.count + 1 }

/-- Inserts a token after the first `number` tokens. -/
def insertAt (number : Nat) (x : Lexeme) : Lex Unit :=
  modify fun l =>
    -- The tokens are held latest first, so that the place is counted from their end.
    let later := l.count - number
    { l with
      lexemes := l.lexemes.take later ++ x :: l.lexemes.drop later
      count := l.count + 1 }

/-- Adds a token of the characters passed over by `s`. -/
def pushSpan (token : Token) (length : Nat) : Lex Unit := do
  let start ← scan Scan.mark
  scan (Scan.skip length)
  push ⟨token, start, ← scan Scan.mark⟩

/-- Whether a possible key is out of date at `now`: keys end on their line and are at most 1024
characters long. -/
def isStale (now : Mark) (k : SimpleKey) : Bool :=
  k.mark.line < now.line || k.mark.index + 1024 < now.index

/-- Gives up a possible key that is out of date, which is a fault if a key had to stand there. -/
def checkKey (now : Mark) : Option SimpleKey → Except Fault (Option SimpleKey)
  | some k =>
    if isStale now k then
      if k.required then throw (.malformed .missingColon now (some (.simpleKey, k.mark)))
      else pure none
    else pure (some k)
  | none => pure none

/-- Gives up the possible keys that are out of date, those of the outermost brackets first. -/
def checkKeys : Lex Unit := do
  let l ← get
  let now := l.cursor.mark
  let outer ← (l.outer.reverse.mapM (checkKey now) : Except Fault _)
  let candidate ← checkKey now l.candidate
  set { l with outer := outer.reverse, candidate }

/-- Gives up the innermost possible key, which is a fault if a key had to stand there. -/
def dropKey : Lex Unit := do
  let l ← get
  match l.candidate with
  | some k =>
    if k.required then
      throw (.malformed .missingColon l.cursor.mark (some (.simpleKey, k.mark)))
  | none => pure ()
  set { l with candidate := none }

/-- Remembers that a key may begin here, where keys are allowed. At the column of the innermost open
block only a key can stand. -/
def saveKey : Lex Unit := do
  if (← get).keyAllowed then
    dropKey
    modify fun l =>
      let mark := l.cursor.mark
      let required := !l.inFlow && l.indents.head? = some mark.column
      { l with candidate := some ⟨l.count, mark, required⟩ }

/-- Allows or forbids a key at the next token. -/
def allowKey (allowed : Bool) : Lex Unit := modify ({ · with keyAllowed := allowed })

/-- Opens a block at `column` if it is further right than the innermost open one, with its token
at the end or after the first `number` tokens. -/
def openBlock (column : Nat) (number : Option Nat) (token : Token) (mark : Mark) : Lex Unit := do
  let l ← get
  if !l.inFlow && l.indents.all (· < column) then
    set { l with indents := column :: l.indents }
    match number with
    | some n => insertAt n ⟨token, mark, mark⟩
    | none => push ⟨token, mark, mark⟩

/-- The blocks among `indents` that content at `column` leaves open; all are closed at the end of a
document, where there is no column. -/
def blocksLeft (column : Option Nat) (indents : List Nat) : List Nat :=
  match column with
  | some n => indents.dropWhile (n < ·)
  | none => []

/-- Closes the blocks that content at `column` does not belong to. -/
def closeBlocks (column : Option Nat) : Lex Unit := do
  let l ← get
  if !l.inFlow then
    let left := blocksLeft column l.indents
    let closed := l.indents.length - left.length
    let mark := l.cursor.mark
    set { l with
      indents := left
      lexemes := List.replicate closed (⟨.blockEnd, mark, mark⟩ : Lexeme) ++ l.lexemes
      count := l.count + closed }

/-- Passes over white space, comments and line breaks. A line break outside brackets allows a key,
and no tab may stand where one is allowed. -/
def skipSpace : Nat → Lex Unit
  | 0 => pure ()
  | fuel + 1 => do
    let l ← get
    -- A byte order mark may stand at the very beginning.
    if l.cursor.mark.index = 0 && (← scan Scan.peek) = '\ufeff' then scan Scan.skip
    let tabs := l.inFlow || !l.keyAllowed
    scan (Scan.skipWhile fun c => c = ' ' || (tabs && c = '\t'))
    if (← scan Scan.peek) = '#' then scan (Scan.skipWhile (!isBreakOrEnd ·))
    if isBreak (← scan Scan.peek) then
      discard (scan Scan.takeLine)
      if !l.inFlow then allowKey true
      skipSpace fuel

/-- Reads the end of the text, which closes all blocks at the beginning of a line. -/
def streamEnd : Lex Unit := do
  modify fun l =>
    let mark := l.cursor.mark
    { l with
      cursor.mark := if mark.column = 0 then mark else mark.nextLine 0
      finished := true }
  closeBlocks none
  dropKey
  allowKey false
  pushSpan .streamEnd 0

/-- Reads what stands outside of all blocks: a directive or a document indicator. -/
def topLevel (read : Lex Unit) : Lex Unit := do
  closeBlocks none
  dropKey
  allowKey false
  read

/-- Reads an opening bracket, which may begin a key. -/
def flowStart (token : Token) : Lex Unit := do
  saveKey
  modify fun l => { l with outer := l.candidate :: l.outer, candidate := none }
  allowKey true
  pushSpan token 1

/-- Reads a closing bracket. -/
def flowEnd (token : Token) : Lex Unit := do
  dropKey
  modify fun l =>
    match l.outer with
    | k :: outer => { l with candidate := k, outer }
    | [] => l
  allowKey false
  pushSpan token 1

/-- Reads a comma inside brackets. -/
def flowEntry : Lex Unit := do
  dropKey
  allowKey true
  pushSpan .flowEntry 1

/-- Opens a block at the cursor for an indicator that may begin one. -/
def openHere (token : Token) (problem : Malformed) : Lex Unit := do
  let l ← get
  if !l.inFlow then
    if !l.keyAllowed then scan (Scan.failHere problem)
    openBlock l.cursor.mark.column none token l.cursor.mark

/-- Reads the hyphen of a sequence entry. -/
def blockEntry : Lex Unit := do
  openHere .blockSequenceStart .blockEntryContext
  dropKey
  allowKey true
  pushSpan .blockEntry 1

/-- Reads the question mark of an explicit key. -/
def explicitKey : Lex Unit := do
  openHere .blockMappingStart .keyContext
  dropKey
  allowKey (!(← get).inFlow)
  pushSpan .key 1

/-- Reads the colon after a key. Where a key may have begun, it did. -/
def value : Lex Unit := do
  let l ← get
  match l.candidate with
  | some k =>
    -- The token that opens the mapping is inserted at the same place later, and so ahead of the key.
    insertAt k.number ⟨.key, k.mark, k.mark⟩
    openBlock k.mark.column (some k.number) .blockMappingStart k.mark
    modify ({ · with candidate := none })
    allowKey false
  | none =>
    openHere .blockMappingStart .valueContext
    allowKey (!l.inFlow)
  pushSpan .value 1

/-- Reads a node property or a scalar, which may begin a key. -/
def nodeStart (read : Scan Lexeme) : Lex Unit := do
  saveKey
  allowKey false
  push (← scan read)

/-- Reads a block scalar, after which a key may stand. -/
def blockScalar (isLiteral : Bool) : Lex Unit := do
  dropKey
  allowKey true
  push (← scan (Scan.blockScalar isLiteral (← get).floor))

/-- Reads a plain scalar, which may begin a key. -/
def plainScalar : Lex Unit := do
  saveKey
  allowKey false
  let l ← get
  let (x, broken) ← scan (Scan.plainScalar l.floor l.inFlow)
  push x
  if broken then allowKey true

/-- Whether a plain scalar may begin with `c` when `next` comes after it. -/
def beginsPlain (inFlow : Bool) (c next : Char) : Bool :=
  !(isBlankOrEnd c ||
      c ∈ ['-', '?', ':', ',', '[', ']', '{', '}', '#', '&', '*', '!', '|', '>', '\x27', '"', '%',
        '@', '\x60']) ||
    (c = '-' && !isBlank next) ||
    (!inFlow && (c = '?' || c = ':') && !isBlankOrEnd next)

/-- Reads the next token, with the tokens that close or open blocks before it. -/
def next : Lex Unit := do
  skipSpace ((← scan Scan.remaining) + 1)
  checkKeys
  let l ← get
  let column := l.cursor.mark.column
  closeBlocks (some column)
  let c := l.cursor.peek 0
  let after := l.cursor.peek 1
  if c = '\x00' then streamEnd
  else if column = 0 && c = '%' then topLevel (do push (← scan Scan.directive))
  else if l.cursor.atDocumentIndicator then
    topLevel (pushSpan (if c = '-' then .documentStart else .documentEnd) 3)
  else if c = '[' then flowStart .flowSequenceStart
  else if c = '{' then flowStart .flowMappingStart
  else if c = ']' then flowEnd .flowSequenceEnd
  else if c = '}' then flowEnd .flowMappingEnd
  else if c = ',' then flowEntry
  -- Hyphens, question marks and colons are indicators before blanks; else a plain scalar may begin
  -- with them.
  else if c = '-' && isBlankOrEnd after then blockEntry
  else if c = '?' && (l.inFlow || isBlankOrEnd after) then explicitKey
  else if c = ':' && (l.inFlow || isBlankOrEnd after) then value
  else if c = '*' then nodeStart Scan.aliasToken
  else if c = '&' then nodeStart Scan.anchor
  else if c = '!' then nodeStart (Scan.tag l.inFlow)
  else if c = '|' && !l.inFlow then blockScalar true
  else if c = '>' && !l.inFlow then blockScalar false
  else if c = '\x27' then nodeStart (Scan.quotedScalar .singleQuoted)
  else if c = '"' then nodeStart (Scan.quotedScalar .doubleQuoted)
  else if beginsPlain l.inFlow c after then plainScalar
  else scan (Scan.fail .nextToken l.cursor.mark .tokenStart)

/-- The number of tokens that no key can begin before any more: those ahead of the first possible
key. -/
def settled (l : Lexer) : Nat :=
  (l.candidate :: l.outer).foldl (fun n k => (k.map (min n ·.number)).getD n) l.count

/-- Reads tokens to the end of the text or the first fault. -/
def run : Nat → Lexer → Tokens
  | 0, l => ⟨l.lexemes.reverse, none⟩
  | fuel + 1, l =>
    if l.finished then ⟨l.lexemes.reverse, none⟩
    else
      match (do next; checkKeys : Lex Unit).run l with
      | .ok (_, l) => run fuel l
      -- What the step has done is lost with it, so the possible keys are those from before.
      | .error fault => ⟨l.lexemes.reverse.take l.settled, some fault⟩

end Lexer

/-- The tokens of a text. -/
def Tokens.ofChars (cs : List Char) : Tokens :=
  Lexer.run (cs.length + 2) { cursor := Cursor.ofChars cs }

end ProviderAssets.Yaml
