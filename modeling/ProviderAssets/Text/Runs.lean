/-!
# Runs of characters

Tables of the Unicode character database give a value for every code point. Neighbours mostly have
the same value, so a table is kept as the runs of equal value from the first code point on, each
under its last code point. It is written as one line of text, read once and looked up by halving.
-/

namespace ProviderAssets.Text.Runs

/-- The value of a lower-case hexadecimal digit. -/
def hexDigit? (c : Char) : Option Nat :=
  if c.isDigit then some (c.toNat - '0'.toNat)
  else if 'a' ≤ c ∧ c ≤ 'f' then some (c.toNat - 'a'.toNat + 10)
  else none

/-- Reads a run: the digits of its last code point, and the name of its value, which begins with a
capital. `last` is the number whose digits have been met so far. -/
def ofWord (last : Nat) : List Char → Option (Nat × String)
  | [] => none
  | c :: rest =>
    match hexDigit? c with
    | some n => ofWord (16 * last + n) rest
    | none => some (last, String.ofList (c :: rest))

/-- Reads the words of a text, the current one in reverse in `word`. -/
def ofWords (runs : Array (Nat × String)) (word : List Char) : List Char → Array (Nat × String)
  | [] => runs ++ (ofWord 0 word.reverse).toList
  | c :: rest =>
    if c = ' ' ∨ c = '\n' then ofWords (runs ++ (ofWord 0 word.reverse).toList) [] rest
    else ofWords runs (c :: word) rest

/-- The runs in a text. -/
def ofText (s : String) : Array (Nat × String) := ofWords #[] [] s.toList

variable {α : Type}

/-- The value of the first run between `low` and `high` that does not end before `n`. -/
def search (runs : Array (Nat × α)) (n : Nat) : Nat → Nat → Nat → Option α
  | 0, low, _ => runs[low]?.map (·.2)
  | fuel + 1, low, high =>
    if low < high then
      let mid := (low + high) / 2
      match runs[mid]? with
      | some (last, _) =>
        if n ≤ last then search runs n fuel low mid else search runs n fuel (mid + 1) high
      | none => none
    else runs[low]?.map (·.2)

/-- The value of a code point. -/
def find? (runs : Array (Nat × α)) (n : Nat) : Option α := search runs n 16 0 runs.size

end ProviderAssets.Text.Runs
