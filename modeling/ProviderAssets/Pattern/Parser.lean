import ProviderAssets.Pattern.Boundary
import ProviderAssets.Pattern.NamedSet

/-!
# Reading patterns

The notation of patterns: literals and escapes, sets in brackets with unions, intersections and
differences, groups with names and flags, alternatives and repetitions. What does not follow the
notation is no pattern.
-/

namespace ProviderAssets.Pattern

/-- How the notation is read from here to the end of the group. -/
structure Flags where
  /-- Letters stand for their case variants too. -/
  anyCase : Bool := false
  /-- Lines have beginnings and ends of their own. -/
  multiline : Bool := false
  /-- A dot stands for the end of a line too. -/
  dotAll : Bool := false
  /-- Carriage returns end lines. -/
  carriageReturns : Bool := false
  /-- Sets are sets of Unicode characters. -/
  unicode : Bool := true
  /-- White space and comments do not count. -/
  spaced : Bool := false

/-- The state of the parser. -/
structure ParseState where
  /-- What remains to be read. -/
  rest : List Char
  /-- How it is read. -/
  flags : Flags := {}
  /-- The names of the groups met so far. -/
  names : List String := []
  /-- The number of brackets that are open. -/
  level : Nat := 0

/-- A reader of a part of a pattern, which fails where the notation is broken. -/
abbrev Parse := StateT ParseState Option

namespace Parse

/-- What remains to be read. -/
def remaining : Parse (List Char) := return (← get).rest

/-- The next character. -/
def peek : Parse (Option Char) := return (← get).rest.head?

/-- Reads on from `rest`. -/
def continueAt (rest : List Char) : Parse Unit := modify ({ · with rest })

/-- Reads what is inside one more pair of brackets, of which 250 may be open. -/
def nested {α : Type} (body : Parse α) : Parse α := do
  let outer := (← get).level
  if 250 ≤ outer then failure
  modify ({ · with level := outer + 1 })
  let a ← body
  modify ({ · with level := outer })
  return a

/-- What follows white space and comments. -/
def dropBlanks (inComment : Bool) : List Char → List Char
  | [] => []
  | c :: rest =>
    if inComment then dropBlanks (c ≠ '\n') rest
    else if Text.isWhite c then dropBlanks false rest
    else if c = '#' then dropBlanks true rest
    else c :: rest

/-- Passes over white space and comments where they do not count. -/
def skipBlanks : Parse Unit := do
  let s ← get
  if s.flags.spaced then continueAt (dropBlanks false s.rest)

/-- Passes over one character, and over the blanks after it. -/
def advance : Parse Unit := do
  continueAt ((← remaining).drop 1)
  skipBlanks

/-- Reads one character. -/
def next : Parse Char := do
  match ← remaining with
  | c :: rest =>
    continueAt rest
    return c
  | [] => failure

/-- Reads the given character and passes over the blanks after it. -/
def expect (c : Char) : Parse Unit := do
  if (← peek) = some c then advance else failure

/-- The set with case variants, if they are asked for. -/
def folded (s : CharSet) : Parse CharSet := do
  let flags := (← get).flags
  if !flags.anyCase then return s
  else if flags.unicode then return s.anyCase
  else return s.anyCaseAscii

/-- The set, which may hold nothing but ASCII where sets are not sets of Unicode characters. -/
def admitted (s : CharSet) : Parse CharSet := do
  if !(← get).flags.unicode && !s.isAsciiOnly then failure
  return s

/-- The characters of words. -/
def wordSet : Parse CharSet :=
  return if (← get).flags.unicode then Text.isWord else CharSet.asciiWord

/-- A decimal number of 32 bits. -/
def decimal : Parse Nat := do
  continueAt ((← remaining).dropWhile Text.isWhite)
  let digits := (← remaining).takeWhile Char.isDigit
  continueAt ((← remaining).drop digits.length)
  skipBlanks
  continueAt ((← remaining).dropWhile Text.isWhite)
  match (String.ofList digits).toNat? with
  | some n => if n < Nat.pow 2 32 then return n else failure
  | none => failure

/-- The value of a hexadecimal digit. -/
def hexDigit? (c : Char) : Option Nat :=
  if c.isDigit then some (c.toNat - '0'.toNat)
  else if 'a' ≤ c ∧ c ≤ 'f' then some (c.toNat - 'a'.toNat + 10)
  else if 'A' ≤ c ∧ c ≤ 'F' then some (c.toNat - 'A'.toNat + 10)
  else none

/-- The character with the given code point. -/
def ofCodePoint (n : Nat) : Parse Char := if n.isValidChar then return Char.ofNat n else failure

/-- Reads `count` hexadecimal digits after the number `n`. -/
def hexDigits (n : Nat) : Nat → Parse Nat
  | 0 => return n
  | count + 1 => do
    match (← peek).bind hexDigit? with
    | some d =>
      advance
      hexDigits (16 * n + d) count
    | none => failure

/-- The number that hexadecimal digits in braces stand for. -/
def bracedNumber : List Char → Option Nat
  | [] => none
  | digits => digits.foldlM (fun n c => (hexDigit? c).map (16 * n + ·)) 0

/-- Reads what stands in braces, up to the closing one. -/
def braced : Parse (List Char) := do
  expect '\x7b'
  let spaced := (← get).flags.spaced
  let inner := (← remaining).takeWhile (· ≠ '\x7d')
  continueAt ((← remaining).drop inner.length)
  expect '\x7d'
  return if spaced then inner.filter (!Text.isWhite ·) else inner

/-- Reads the code point of an escape, which has `count` digits if it is not in braces. -/
def codePoint (count : Nat) : Parse Char := do
  if (← peek) = some '\x7b' then
    match bracedNumber (← braced) with
    | some n => ofCodePoint n
    | none => failure
  else ofCodePoint (← hexDigits 0 count)

/-- Reads the code point of an escape for a byte. Where sets are not sets of Unicode characters, two
digits stand for a byte, which must be an ASCII character. -/
def byteEscape : Parse Char := do
  let fixed := (← peek) ≠ some '\x7b'
  let c ← codePoint 2
  if fixed && !(← get).flags.unicode && c.toNat ≥ 128 then failure
  return c

/-- The set that a name in braces stands for. -/
def namedSet (name : List Char) : Option CharSet :=
  let before := name.takeWhile fun c => c ≠ '=' && c ≠ ':'
  match name.drop before.length with
  | [] => CharSet.ofName? (String.ofList name)
  | _ :: value =>
    match before.reverse with
    | '!' :: reversed =>
      (CharSet.ofNameAndValue? (String.ofList reversed.reverse) (String.ofList value)).map
        CharSet.complement
    | _ => CharSet.ofNameAndValue? (String.ofList before) (String.ofList value)

/-- Reads a set by the name of a property. -/
def property (negated : Bool) : Parse CharSet := do
  if !(← get).flags.unicode then failure
  let name ← match ← peek with
    | some '\x7b' => braced
    | some '\\' | none => failure
    | some c => do
      advance
      pure [c]
  match namedSet name with
  | some s =>
    let s ← folded s
    return if negated then s.complement else s
  | none => failure

/-- The set of a letter: digits, white space or words, or all but these. -/
def letterSet (letter : Char) : Parse CharSet := do
  let unicode := (← get).flags.unicode
  let s : CharSet ← match letter.toLower with
    | 'd' => pure (if unicode then fun c => Text.category c = .nd else Char.isDigit)
    | 's' => pure (if unicode then Text.isWhite else CharSet.asciiSpace)
    | _ => wordSet
  return if letter.isUpper then s.complement else s

/-- What an escape or a single character stands for. -/
inductive Atom where
  | literal (c : Char)
  | set (s : CharSet)
  | boundary (b : Boundary)

/-- Characters that mean something in the notation. -/
def isMeta (c : Char) : Bool := c ∈ "\\.+*?()|[]\x7b\x7d^$#&-~".toList

/-- Characters that an escape stands for as they are. -/
def isEscapable (c : Char) : Bool :=
  isMeta c || (c.toNat < 128 && !c.isAlphanum && c ≠ '<' && c ≠ '>')

/-- Reads the name of an edge of a word after `b`, if there is one. -/
def wordBoundary : Parse Boundary := do
  let word ← wordSet
  match ← remaining with
  | '\x7b' :: rest =>
    if rest.isEmpty then failure
    let start ← get
    advance
    let isNameChar (c : Char) : Bool := c.isAlpha || c = '-'
    if !(← peek).any isNameChar then
      -- Without a name the brace begins a repetition.
      set start
      return Boundary.wordEdge word
    let name := (← remaining).takeWhile isNameChar
    continueAt ((← remaining).drop name.length)
    skipBlanks
    expect '\x7d'
    match String.ofList name with
    | "start" => return Boundary.wordStart word
    | "end" => return Boundary.wordEnd word
    | "start-half" => return Boundary.wordStartHalf word
    | "end-half" => return Boundary.wordEndHalf word
    | _ => failure
  | _ => return Boundary.wordEdge word

/-- Reads what follows a backslash. -/
def escape : Parse Atom := do
  let c ← next
  match c with
  | 'x' => skipBlanks; return .literal (← byteEscape)
  | 'u' => skipBlanks; return .literal (← codePoint 4)
  | 'U' => skipBlanks; return .literal (← codePoint 8)
  | 'p' => skipBlanks; return .set (← property false)
  | 'P' => skipBlanks; return .set (← property true)
  | 'd' | 's' | 'w' | 'D' | 'S' | 'W' => return .set (← letterSet c)
  | 'a' => return .literal '\x07'
  | 'f' => return .literal '\x0c'
  | 't' => return .literal '\t'
  | 'n' => return .literal '\n'
  | 'r' => return .literal '\r'
  | 'v' => return .literal '\x0b'
  | 'A' => return .boundary Boundary.textStart
  | 'z' => return .boundary Boundary.textEnd
  | 'b' => return .boundary (← wordBoundary)
  | 'B' => return .boundary (Boundary.noWordEdge (← wordSet))
  | '<' => return .boundary (Boundary.wordStart (← wordSet))
  | '>' => return .boundary (Boundary.wordEnd (← wordSet))
  | c => if isEscapable c then return .literal c else failure

/-- The operators on sets in brackets. -/
inductive SetOperator where
  | inter
  | diff
  | symmDiff

/-- Applies an operator. -/
def SetOperator.apply : SetOperator → CharSet → CharSet → CharSet
  | inter => CharSet.inter
  | diff => CharSet.diff
  | symmDiff => CharSet.symmDiff

/-- Reads the operator that comes next, if one does. -/
def setOperator? : Parse (Option SetOperator) := do
  let operator? : Option SetOperator := match ← remaining with
    | '&' :: '&' :: _ => some .inter
    | '-' :: '-' :: _ => some .diff
    | '~' :: '~' :: _ => some .symmDiff
    | _ => none
  if operator?.isSome then
    continueAt ((← remaining).drop 2)
  return operator?

/-- Applies the operator that waits for its right operand. -/
def applyPending (pending : Option (CharSet × SetOperator)) (s : CharSet) : Parse CharSet := do
  match pending with
  | none => return s
  | some (left, operator) => return operator.apply (← folded left) (← folded s)

/-- Reads a set of ASCII characters by its name, if one comes next. -/
def asciiSet? : Parse (Option CharSet) := do
  match ← remaining with
  | '[' :: ':' :: rest =>
    let negated := rest.head? = some '^'
    let rest := if negated then rest.drop 1 else rest
    let name := rest.takeWhile (· ≠ ':')
    match rest.drop name.length with
    | ':' :: ']' :: rest =>
      match CharSet.asciiNamed? (String.ofList name) with
      | some s =>
        continueAt rest
        let s ← folded s
        return some (if negated then s.complement else s)
      | none => return none
    | _ => return none
  | _ => return none

/-- Reads an item of a set: a character or an escape. -/
def setAtom : Parse Atom := do
  match ← peek with
  | some '\\' =>
    discard next
    escape
  | some c =>
    advance
    return .literal c
  | none => failure

/-- The set of an item of a set. -/
def setOfAtom : Atom → Parse CharSet
  | .literal c => do
    if !(← get).flags.unicode && c.toNat ≥ 128 then failure
    return CharSet.single c
  | .set s => return s
  | .boundary _ => failure

/-- Whether a hyphen comes next that makes a range with what is before and after it. -/
def isRangeNext : Parse Bool := do
  match ← remaining with
  | '-' :: rest =>
    let spaced := (← get).flags.spaced
    let next := (if spaced then dropBlanks false rest else rest).head?
    return next ≠ some ']' && next ≠ some '-'
  | _ => return false

/-- Reads an item of a set, or a range. -/
def setRange : Parse CharSet := do
  let first ← setAtom
  skipBlanks
  if (← peek).isNone then failure
  if ← isRangeNext then
    advance
    match first, ← setAtom with
    | .literal a, .literal b =>
      if !(← get).flags.unicode && b.toNat ≥ 128 then failure
      if a ≤ b then return CharSet.range a b else failure
    | _, _ => failure
  else setOfAtom first

/-- Reads the hyphens at the beginning of a set, which stand for themselves. -/
def leadingHyphens (s : CharSet) : Nat → Parse CharSet
  | 0 => return s
  | fuel + 1 => do
    if (← peek) = some '-' then
      advance
      leadingHyphens (s.union (CharSet.single '-')) fuel
    else return s

mutual

/-- Reads a set in brackets from the opening bracket on. -/
def bracketed : Nat → Parse CharSet
  | 0 => failure
  | fuel + 1 => do
    expect '['
    let negated := (← peek) = some '^'
    if negated then advance
    let s ← leadingHyphens CharSet.none (← remaining).length
    -- A closing bracket that comes first stands for itself.
    let s ← if !s '-' && (← peek) = some ']' then do
        advance
        pure (CharSet.single ']')
      else pure s
    let s ← folded (← setItems fuel none s)
    admitted (if negated then s.complement else s)

/-- Reads the items of a set up to the closing bracket. -/
def setItems : Nat → Option (CharSet × SetOperator) → CharSet → Parse CharSet
  | 0, _, _ => failure
  | fuel + 1, pending, s => do
    skipBlanks
    if let some operator ← setOperator? then
      -- Operators associate to the left: what they have made so far is the next left operand.
      let s ← applyPending pending s
      setItems fuel (some (s, operator)) CharSet.none
    else if let some t ← asciiSet? then
      setItems fuel pending (s.union t)
    else
      match ← peek with
      | none => failure
      | some '[' => setItems fuel pending (s.union (← nested (bracketed fuel)))
      | some ']' =>
        discard next
        applyPending pending s
      | some _ => setItems fuel pending (s.union (← setRange))

end

/-- The pattern of what a single character or an escape stands for. -/
def patternOfAtom : Atom → Parse Pattern
  | .literal c => do
    return .one (← folded (CharSet.single c))
  | .set s => return .one (← admitted s)
  | .boundary b => return .look b

/-- The pattern of a dot. -/
def dot : Parse Pattern := do
  let flags := (← get).flags
  if !flags.unicode then failure
  return .one fun c => flags.dotAll || (c ≠ '\n' && (!flags.carriageReturns || c ≠ '\r'))

/-- The pattern of a caret or a dollar sign. -/
def edge (text line lineAny : Boundary) : Parse Pattern := do
  let flags := (← get).flags
  return .look (if !flags.multiline then text else if flags.carriageReturns then lineAny else line)

/-- Sets a flag. -/
def Flags.set (on : Bool) (flags : Flags) : Char → Option Flags
  | 'i' => some { flags with anyCase := on }
  | 'm' => some { flags with multiline := on }
  | 's' => some { flags with dotAll := on }
  | 'R' => some { flags with carriageReturns := on }
  | 'u' => some { flags with unicode := on }
  | 'x' => some { flags with spaced := on }
  -- Which of several matches is preferred does not matter.
  | 'U' => some flags
  | _ => none

/-- Reads flags up to the colon or the bracket that ends them. `seen` are the characters read, and
`on` says whether flags are set or cleared. -/
def flagsUntilEnd (flags : Flags) (on : Bool) (seen : List Char) : List Char →
    Option (Flags × List Char × List Char)
  | [] => none
  | c :: rest =>
    if c = ':' ∨ c = ')' then
      if seen.head? = some '-' then none else some (flags, seen, c :: rest)
    else if c ∈ seen then none
    else if c = '-' then flagsUntilEnd flags false (c :: seen) rest
    else
      match Flags.set on flags c with
      | some flags => flagsUntilEnd flags on (c :: seen) rest
      | none => none

/-- Reads the name of a group up to the closing angle bracket. -/
def groupName (rest : List Char) : Parse Unit := do
  let name := rest.takeWhile (· ≠ '>')
  let isFirst (c : Char) : Bool := c = '_' || Text.isAlphabetic c
  let isNext (c : Char) : Bool :=
    isFirst c || c = '.' || c = '[' || c = ']' || Text.isNumeric c
  let good := match name with
    | [] => false
    | c :: more => isFirst c && more.all isNext
  let text := String.ofList name
  let s ← get
  match rest.drop name.length with
  | '>' :: rest =>
    if good && text ∉ s.names then set { s with rest, names := text :: s.names } else failure
  | _ => failure

/-- The kinds of opening brackets. -/
inductive Opening where
  /-- A group; these are the flags inside. -/
  | group (flags : Flags)
  /-- No group, but flags for what follows. -/
  | flags

/-- Reads an opening bracket and what belongs to it. -/
def opening : Parse Opening := do
  expect '('
  let flags := (← get).flags
  match ← remaining with
  -- There is no way to look ahead or behind.
  | '?' :: '<' :: '=' :: _ | '?' :: '<' :: '!' :: _ => failure
  | '?' :: 'P' :: '<' :: rest | '?' :: '<' :: rest =>
    groupName rest
    return .group flags
  | '?' :: rest =>
    match flagsUntilEnd flags true [] rest with
    | some (inner, _, ':' :: rest) =>
      continueAt rest
      return .group inner
    | some (inner, seen, ')' :: rest) =>
      if seen.isEmpty then failure
      modify ({ · with rest, flags := inner })
      return .flags
    | _ => failure
  | _ => return .group flags

/-- Reads the counts of a repetition from the opening brace on. -/
def counts : Parse (Nat × Option Nat) := do
  expect '\x7b'
  let least ← decimal
  let most ← if (← peek) = some ',' then do
      advance
      if (← peek) = some '\x7d' then pure none else some <$> decimal
    else pure (some least)
  if (← peek) ≠ some '\x7d' || most.any (· < least) then failure
  advance
  return (least, most)

/-- Reads a sign that a repetition is to be short, which does not matter for whether there is a
match. -/
def shortness : Parse Unit := do
  if (← peek) = some '?' then discard next

/-- A pattern after the patterns before it. -/
def sequence (items : List Pattern) : Pattern :=
  match items.reverse with
  | [] => .empty
  | p :: rest => rest.foldl .seq p

mutual

/-- Reads alternatives up to the end of the group. -/
def alternatives : Nat → Parse Pattern
  | 0 => failure
  | fuel + 1 => do
    let p ← concatenation fuel [] none
    if (← peek) = some '|' then
      discard next
      return .either p (← alternatives fuel)
    else return p

/-- Reads the patterns of an alternative. `items` are those before, latest first, and `last` is the
latest one if it may be repeated. -/
def concatenation : Nat → List Pattern → Option Pattern → Parse Pattern
  | 0, _, _ => failure
  | fuel + 1, items, last => do
    skipBlanks
    let items' := last.toList ++ items
    let goOn (p : Pattern) : Parse Pattern := concatenation fuel items' (some p)
    let repeated (least : Nat) (most : Option Nat) : Parse Pattern := do
      match last with
      | none => failure
      | some p =>
        shortness
        concatenation fuel items (some (.repeated p least most))
    match ← peek with
    | none | some '|' | some ')' => return sequence items'
    | some '(' =>
      let outer := (← get).flags
      match ← opening with
      -- Flags hold up to the end of the group, and cannot be repeated.
      | .flags => concatenation fuel items' none
      | .group inner =>
        modify ({ · with flags := inner })
        let p ← nested (alternatives fuel)
        if (← peek) ≠ some ')' then failure
        discard next
        modify ({ · with flags := outer })
        goOn p
    | some '[' => goOn (.one (← nested (bracketed fuel)))
    | some '*' => discard next; repeated 0 none
    | some '+' => discard next; repeated 1 none
    | some '?' => discard next; repeated 0 (some 1)
    | some '\x7b' =>
      let (least, most) ← counts
      repeated least most
    | some '.' => discard next; goOn (← dot)
    | some '^' =>
      discard next
      goOn (← edge Boundary.textStart Boundary.lineStart Boundary.lineStartAny)
    | some '$' =>
      discard next
      goOn (← edge Boundary.textEnd Boundary.lineEnd Boundary.lineEndAny)
    | some '\\' =>
      discard next
      goOn (← patternOfAtom (← escape))
    | some c =>
      discard next
      goOn (← patternOfAtom (.literal c))

end

end Parse

/-- The pattern in a text, if it follows the notation. -/
def ofText? (s : String) : Option Pattern := do
  let cs := s.toList
  let (p, state) ← (Parse.alternatives (2 * cs.length + 2)).run { rest := cs }
  if state.rest.isEmpty then some p else none

end ProviderAssets.Pattern
