import ProviderAssets.Yaml.Fault

/-!
# Characters of a text

A text may hold the tab, the line feed, the carriage return, the next-line character and every
character from the space on that is not a control. Bytes are read as UTF-8. Offsets in faults count
bytes.
-/

namespace ProviderAssets.Yaml

/-- Whether the character may occur in a text. -/
def isAllowed (c : Char) : Bool :=
  let n := c.toNat
  n = 0x09 || n = 0x0A || n = 0x0D || (0x20 ≤ n && n ≤ 0x7E) || n = 0x85 ||
    (0xA0 ≤ n && n ≤ 0xFFFD) || 0x10000 ≤ n

/-- The first character of `cs` that may not occur, as a fault; `offset` bytes come before `cs`. -/
def findControl (offset : Nat) : List Char → Option Fault
  | [] => none
  | c :: cs =>
    if isAllowed c then findControl (offset + c.utf8Size) cs
    else some (.unreadable .controlCharacter offset)

/-- The characters of a text, unless one may not occur in it. -/
def charsOfString (s : String) : Except Fault (List Char) :=
  match findControl 0 s.toList with
  | some fault => throw fault
  | none => pure s.toList

/-- The length of the sequence that a leading byte announces, and the bits of the code point in
it. -/
def leadingByte? (b : UInt8) : Option (Nat × Nat) :=
  if b &&& 0x80 = 0 then some (1, (b &&& 0x7F).toNat)
  else if b &&& 0xE0 = 0xC0 then some (2, (b &&& 0x1F).toNat)
  else if b &&& 0xF0 = 0xE0 then some (3, (b &&& 0x0F).toNat)
  else if b &&& 0xF8 = 0xF0 then some (4, (b &&& 0x07).toNat)
  else none

/-- Adds the bits of the trailing bytes to those of the leading one, or gives the position of the
first byte that does not trail. -/
def trailingBytes (value position : Nat) : List UInt8 → Except Nat Nat
  | [] => pure value
  | b :: bs =>
    if b &&& 0xC0 = 0x80 then trailingBytes (value * 64 + (b &&& 0x3F).toNat) (position + 1) bs
    else throw position

/-- The least code point that takes a sequence of the given length. -/
def leastOfWidth : Nat → Nat
  | 2 => 0x80
  | 3 => 0x800
  | 4 => 0x10000
  | _ => 0

/-- The first character of `bytes` and the number of bytes it takes. -/
def readChar (offset : Nat) (bytes : List UInt8) (first : UInt8) : Except Fault (Char × Nat) :=
  match leadingByte? first with
  | none => throw (.unreadable .leadingOctet offset)
  | some (width, bits) =>
    if bytes.length < width then throw (.unreadable .incompleteSequence offset)
    else
      match trailingBytes bits (offset + 1) ((bytes.take width).drop 1) with
      | .error position => throw (.unreadable .trailingOctet position)
      | .ok value =>
        if value < leastOfWidth width then throw (.unreadable .sequenceLength offset)
        else if h : value.isValidChar then
          let c := Char.ofNatAux value h
          if isAllowed c then pure (c, width) else throw (.unreadable .controlCharacter offset)
        else throw (.unreadable .noCharacter offset)

/-- The characters of the bytes from `offset` on; `fuel` bounds their number. -/
def readChars (offset : Nat) : Nat → List UInt8 → Except Fault (List Char)
  | fuel + 1, first :: rest => do
    let (c, width) ← readChar offset (first :: rest) first
    let cs ← readChars (offset + width) fuel (rest.drop (width - 1))
    return c :: cs
  | _, _ => pure []

/-- The characters of a text given as bytes. -/
def charsOfBytes (bytes : List UInt8) : Except Fault (List Char) :=
  readChars 0 bytes.length bytes

end ProviderAssets.Yaml
