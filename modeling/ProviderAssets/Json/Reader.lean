import ProviderAssets.Mismatch

/-!
# Reading JSON text

Reading an object of texts from bytes. An error is named by the line, counted from one, and the
number of bytes of that line that were read before it or with it.
-/

namespace ProviderAssets.Json

/-- What is wrong with a text. -/
inductive Problem where
  | endInObject
  | endInString
  | endInValue
  | expectedColon
  | expectedCommaOrEnd
  | expectedWord
  | expectedValue
  | escape
  | number
  | numberRange
  | codePoint
  | controlCharacter
  | key
  | loneSurrogate
  | trailingComma
  | trailingCharacters
  | surrogateEnd
  | mismatch (m : Mismatch)
  deriving DecidableEq

/-- The wording of a problem. -/
def Problem.message : Problem → String
  | endInObject => "EOF while parsing an object"
  | endInString => "EOF while parsing a string"
  | endInValue => "EOF while parsing a value"
  | expectedColon => "expected \x60:\x60"
  | expectedCommaOrEnd => "expected \x60,\x60 or \x60\x7d\x60"
  | expectedWord => "expected ident"
  | expectedValue => "expected value"
  | escape => "invalid escape"
  | number => "invalid number"
  | numberRange => "number out of range"
  | codePoint => "invalid unicode code point"
  | controlCharacter => "control character (\\u0000-\\u001F) found while parsing a string"
  | key => "key must be a string"
  | loneSurrogate => "lone leading surrogate in hex escape"
  | trailingComma => "trailing comma"
  | trailingCharacters => "trailing characters"
  | surrogateEnd => "unexpected end of hex escape"
  | mismatch m => m.message .json

/-- A problem with its place. -/
structure Error where
  /-- What is wrong. -/
  problem : Problem
  /-- The number of the line, from one. -/
  line : Nat
  /-- How much of that line has been read, in bytes. -/
  column : Nat
  deriving DecidableEq

/-- The message of an error. -/
def Error.message (e : Error) : String :=
  e.problem.message ++ " at line " ++ toString e.line ++ " column " ++ toString e.column

/-- A text that is read byte by byte. -/
structure Input where
  /-- The bytes read so far, latest first. -/
  before : List UInt8
  /-- The bytes still to be read. -/
  rest : List UInt8

/-- A computation that reads bytes. -/
abbrev Read := StateT Input (Except Error)

namespace Read

variable {α : Type}

/-- The byte of a character of ASCII. -/
def byte (c : Char) : UInt8 := c.toUInt8

/-- The place after the given bytes, latest first. -/
def errorAfter (problem : Problem) (before : List UInt8) : Error :=
  { problem
    line := before.count (byte '\n') + 1
    column := (before.takeWhile (· ≠ byte '\n')).length }

/-- Fails after the bytes that have been read. -/
def fail (problem : Problem) : Read α := do
  throw (errorAfter problem (← get).before)

/-- Fails after the next byte, if there is one. -/
def failNext (problem : Problem) : Read α := do
  let i ← get
  throw (errorAfter problem (i.rest.take 1 ++ i.before))

/-- The next byte. -/
def peek : Read (Option UInt8) := return (← get).rest.head?

/-- Reads the next byte. -/
def next : Read (Option UInt8) := modifyGet fun i =>
  match i.rest with
  | b :: rest => (some b, ⟨b :: i.before, rest⟩)
  | [] => (none, i)

/-- Reads the next byte, whatever it is. -/
def skip : Read Unit := discard next

/-- Reads the bytes with the given property that come next. -/
def takeWhile (p : UInt8 → Bool) : Read (List UInt8) := modifyGet fun i =>
  let taken := i.rest.takeWhile p
  (taken, ⟨taken.reverse ++ i.before, i.rest.drop taken.length⟩)

/-- Passes over white space and gives the byte after it. -/
def peekToken : Read (Option UInt8) := do
  discard (takeWhile fun b => b = byte ' ' || b = byte '\n' || b = byte '\t' || b = byte '\r')
  peek

/-- The value of a hexadecimal digit. -/
def hexValue? (b : UInt8) : Option Nat :=
  if byte '0' ≤ b ∧ b ≤ byte '9' then some (b - byte '0').toNat
  else if byte 'a' ≤ b ∧ b ≤ byte 'f' then some ((b - byte 'a').toNat + 10)
  else if byte 'A' ≤ b ∧ b ≤ byte 'F' then some ((b - byte 'A').toNat + 10)
  else none

/-- Reads four hexadecimal digits. -/
def hexEscape : Read Nat := do
  let i ← get
  match i.rest with
  | a :: b :: c :: d :: rest =>
    set (⟨d :: c :: b :: a :: i.before, rest⟩ : Input)
    match [a, b, c, d].mapM hexValue? with
    | some values => return values.foldl (16 * · + ·) 0
    | none => fail .escape
  | rest =>
    set (⟨rest.reverse ++ i.before, []⟩ : Input)
    fail .endInString

/-- Reads a byte that an escape of two parts needs between them. -/
def expectByte (b : UInt8) : Read Unit := do
  match ← peek with
  | none => fail .endInString
  | some c =>
    skip
    if c ≠ b then fail .surrogateEnd

/-- The bytes of a code point, none of them if there is no such character. -/
def encode (n : Nat) : List UInt8 :=
  if h : n.isValidChar then (String.singleton (Char.ofNatAux n h)).toUTF8.toList else []

/-- Reads an escape that gives a code point, from its digits on. A code point beyond the basic plane
takes two of them. -/
def unicodeEscape : Read (List UInt8) := do
  let high ← hexEscape
  if 0xDC00 ≤ high && high ≤ 0xDFFF then fail .loneSurrogate
  if high < 0xD800 || 0xDBFF < high then return encode high
  expectByte (byte '\\')
  expectByte (byte 'u')
  let low ← hexEscape
  if low < 0xDC00 || 0xDFFF < low then fail .loneSurrogate
  return encode ((high - 0xD800) * 0x400 + (low - 0xDC00) + 0x10000)

/-- Reads an escape, from the byte after its backslash on. -/
def escape : Read (List UInt8) := do
  match ← next with
  | none => fail .endInString
  | some b =>
    if b = byte '"' || b = byte '\\' || b = byte '/' then return [b]
    else if b = byte 'b' then return [8]
    else if b = byte 'f' then return [12]
    else if b = byte 'n' then return [10]
    else if b = byte 'r' then return [13]
    else if b = byte 't' then return [9]
    else if b = byte 'u' then unicodeEscape
    else fail .escape

/-- Reads the bytes of a string up to its closing quote, after those in `text`, latest first. -/
def stringBytes : Nat → List UInt8 → Read (List UInt8)
  | 0, text => return text
  | fuel + 1, text => do
    match ← next with
    | none => fail .endInString
    | some b =>
      if b = byte '"' then return text
      else if b = byte '\\' then
        let bytes ← escape
        stringBytes fuel (bytes.reverse ++ text)
      else if b < 0x20 then fail .controlCharacter
      else stringBytes fuel (b :: text)

/-- The number of bytes of the first character, if they begin with one. -/
def firstCharLength? (bytes : List UInt8) : Option Nat :=
  [1, 2, 3, 4].find? fun n => n ≤ bytes.length && (Text.ofBytes? (bytes.take n)).isSome

/-- How many bytes there are before the first one that belongs to no character; `fuel` bounds the
number of characters. -/
def textLength : Nat → List UInt8 → Nat
  | 0, _ => 0
  | fuel + 1, bytes =>
    match firstCharLength? bytes with
    | some n => n + textLength fuel (bytes.drop n)
    | none => 0

/-- Reads a string, from its opening quote on. -/
def string : Read String := do
  skip
  let start ← get
  let text ← stringBytes (start.rest.length + 1) []
  match Text.ofBytes? text.reverse with
  | some s => return s
  | none =>
    -- The fault is at the first byte that belongs to no character.
    let good := textLength start.rest.length start.rest
    throw (errorAfter .codePoint ((start.rest.take (good + 1)).reverse ++ start.before))

/-- Reads the letters that complete a word. -/
def word (letters : String) : Read Unit := do
  for c in letters.toList do
    match ← next with
    | none => fail .endInValue
    | some b => if b ≠ byte c then fail .expectedWord

/-- Whether a byte is a decimal digit. -/
def isDigit (b : UInt8) : Bool := byte '0' ≤ b && b ≤ byte '9'

/-- The number that decimal digits stand for. -/
def ofDigits (digits : List UInt8) : Nat :=
  digits.foldl (fun n b => 10 * n + (b - byte '0').toNat) 0

/-- Reads the digits after a decimal point. -/
def fraction : Read (List UInt8) := do
  if (← peek) ≠ some (byte '.') then return []
  skip
  let digits ← takeWhile isDigit
  if digits.isEmpty then
    if (← peek).isSome then failNext .number else fail .endInValue
  return digits

/-- How many digits after those of `n` it takes to leave the range of exponents, if they do. -/
def lengthBeyondRange (n : Nat) : List UInt8 → Option Nat
  | [] => none
  | b :: rest =>
    let n := 10 * n + (b - byte '0').toNat
    if n < Nat.pow 2 31 then (lengthBeyondRange n rest).map (· + 1) else some 1

/-- Reads the exponent of a number with significand `m`. One that is out of range makes the number
zero if it is negative. -/
def exponent (m : Nat) : Read Int := do
  let e ← peek
  if e ≠ some (byte 'e') && e ≠ some (byte 'E') then return 0
  skip
  let sign ← peek
  if sign = some (byte '+') || sign = some (byte '-') then skip
  let negative := sign = some (byte '-')
  match ← next with
  | none => fail .endInValue
  | some b =>
    if !isDigit b then fail .number
    let more := (← get).rest.takeWhile isDigit
    if let some length := lengthBeyondRange (b - byte '0').toNat more then
      if m ≠ 0 && !negative then
        -- The fault is at the digit that leads out of the range.
        for _ in List.range length do skip
        fail .numberRange
    let n : Int := ofDigits (b :: (← takeWhile isDigit))
    return if negative then -n else n

/-- Adds digits to those of `n` as long as that fits in 64 bits, and counts the ones that are
left. -/
def addDigits (n : Nat) (digits : List UInt8) : Nat × Nat :=
  match digits with
  | [] => (n, 0)
  | b :: rest =>
    let next := 10 * n + (b - byte '0').toNat
    if next < Nat.pow 2 64 then addDigits next rest else (n, digits.length)

/-- The double for a significand and a power of ten: the nearest doubles to both are multiplied or
divided, and powers below the smallest one are applied in steps. -/
def scaled (x : Binary64) (e : Int) : Option Binary64 :=
  if e.natAbs ≤ 308 then
    let power := Binary64.ofDecimal false 1 e.natAbs
    let y := if 0 ≤ e then x.mul power else x.div power
    if y.isFinite then some y else none
  else if x.significand = 0 then some x
  else if 0 ≤ e then none
  else scaled (x.div (Binary64.ofDecimal false 1 308)) (e + 308)
termination_by e.natAbs

/-- Reads a number after its sign. -/
def number (negative : Bool) : Read Found := do
  let first ← next
  match first with
  | none => fail .endInValue
  | some b => if !isDigit b then fail .number
  let lead := first.getD 0
  if lead = byte '0' && (← peek).any isDigit then failNext .number
  let digits := lead :: (← if lead = byte '0' then pure [] else takeWhile isDigit)
  let next ← peek
  let n := ofDigits digits
  -- An integer that does not fit in 64 bits is read as a double.
  if next ≠ some (byte '.') && next ≠ some (byte 'e') && next ≠ some (byte 'E') then
    if !negative && n < Nat.pow 2 64 then return .integer n
    if negative && 0 < n && n ≤ Nat.pow 2 63 then return .integer (-(n : Int))
  let places ← fraction
  -- Digits beyond those that fit in 64 bits count for the power of ten alone.
  let (whole, left) := addDigits 0 digits
  let (m, lost) := addDigits whole places
  let shift : Int := (left + lost : Int) - places.length
  match scaled (Binary64.ofRatio false m 1) ((← exponent m) + shift) with
  | some x => return .float (if negative then x.neg else x)
  | none => fail .numberRange

/-- Fails because the value that comes next is not of the expected type. -/
def unexpected (expected : String) : Read α := do
  let refuse (f : Found) : Read α := fail (.mismatch (.invalidType f expected))
  match ← peek with
  | none => failNext .expectedValue
  | some b =>
    if b = byte 'n' then
      skip
      word "ull"
      refuse .null
    else if b = byte 't' then
      skip
      word "rue"
      refuse (.bool true)
    else if b = byte 'f' then
      skip
      word "alse"
      refuse (.bool false)
    else if b = byte '-' then
      skip
      refuse (← number true)
    else if isDigit b then refuse (← number false)
    else if b = byte '"' then refuse (.string (← string))
    else if b = byte '[' then refuse .sequence
    else if b = byte '\x7b' then refuse .map
    else failNext .expectedValue

/-- Reads a string value. -/
def stringValue : Read String := do
  match ← peekToken with
  | none => failNext .endInValue
  | some b => if b = byte '"' then string else unexpected "a string"

/-- Passes over the colon after a key. -/
def colon : Read Unit := do
  match ← peekToken with
  | none => failNext .endInObject
  | some b => if b = byte ':' then skip else failNext .expectedColon

/-- Reads a field after the opening brace or the comma. -/
def field : Read (String × String) := do
  let key ← string
  colon
  return (key, ← stringValue)

/-- Reads the fields of an object after the first one. -/
def fields : Nat → Read (List (String × String))
  | 0 => return []
  | fuel + 1 => do
    match ← peekToken with
    | none => failNext .endInObject
    | some b =>
      if b = byte '\x7d' then return []
      else if b = byte ',' then
        skip
        match ← peekToken with
        | none => failNext .endInObject
        | some b =>
          if b = byte '"' then
            let f ← field
            return f :: (← fields fuel)
          else if b = byte '\x7d' then failNext .trailingComma
          else failNext .key
      else failNext .expectedCommaOrEnd

/-- Reads an object of texts with nothing after it. -/
def document : Read (List (String × String)) := do
  match ← peekToken with
  | none => failNext .endInValue
  | some b =>
    if b ≠ byte '\x7b' then unexpected "a map"
    skip
    let all ←
      match ← peekToken with
      | none => failNext .endInObject
      | some b =>
        if b = byte '\x7d' then pure []
        else if b = byte '"' then
          let f ← field
          pure (f :: (← fields ((← get).rest.length + 1)))
        else failNext .key
    skip
    if (← peekToken).isSome then failNext .trailingCharacters
    return all

end Read

/-- The fields of an object of texts, in the order of the text. -/
def readFields (bytes : List UInt8) : Except Error (List (String × String)) := do
  let (fields, _) ← Read.document ⟨[], bytes⟩
  return fields

end ProviderAssets.Json
