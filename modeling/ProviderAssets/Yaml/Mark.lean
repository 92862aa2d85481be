/-!
# Places in a text

A `Mark` says how far into a text a token, a node or a fault lies. Its words, as messages give
them, count lines and columns from one.
-/

namespace ProviderAssets.Yaml

/-- A place in a text. -/
structure Mark where
  /-- The number of characters before it. -/
  index : Nat
  /-- The number of lines before its line. -/
  line : Nat
  /-- The number of characters before it on its line. -/
  column : Nat
  deriving DecidableEq, Inhabited

namespace Mark

/-- The beginning of a text. -/
def start : Mark := ⟨0, 0, 0⟩

/-- Whether the place is the first column of the first line, which messages leave out. -/
def isFirst (m : Mark) : Bool := m.line = 0 && m.column = 0

/-- The place after one more character of the same line. -/
def next (m : Mark) : Mark := ⟨m.index + 1, m.line, m.column + 1⟩

/-- The place after `n` more characters of the same line. -/
def advance (m : Mark) (n : Nat) : Mark := ⟨m.index + n, m.line, m.column + n⟩

/-- The beginning of the next line, after a line break of `width` characters. -/
def nextLine (m : Mark) (width : Nat) : Mark := ⟨m.index + width, m.line + 1, 0⟩

/-- The clause that names the place at the end of a message; empty for the first place. -/
def clause (m : Mark) : String :=
  if m.isFirst then ""
  else " at line " ++ toString (m.line + 1) ++ " column " ++ toString (m.column + 1)

end Mark

end ProviderAssets.Yaml
