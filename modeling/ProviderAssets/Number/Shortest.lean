import ProviderAssets.Number.Binary64

/-!
# Decimal text of a double

A finite double is written with the fewest decimal digits that read back as the same double, and of
those with the nearest. The numbers that read back form an interval around the double, which
contains its ends iff the significand is even. If a number with `n` digits lies in it, so does one
of the double's two neighbours among the numbers with `n` digits.
-/

namespace ProviderAssets.Binary64

/-- The interval of the numbers that read back as a double. -/
structure Interval where
  /-- The double. -/
  value : Nat
  /-- The lower end. -/
  low : Nat
  /-- The upper end. -/
  high : Nat
  /-- What the three numbers are divided by. -/
  den : Nat
  /-- Whether the ends belong to the interval. -/
  closed : Bool

/-- The interval of a finite double. -/
def interval (x : Binary64) : Interval :=
  let m := x.significand
  -- Below a power of two the doubles are twice as dense.
  let below := if x.fractionField = 0 && x.exponentField > 1 then 1 else 2
  let up := power 2 x.exponent
  { value := 4 * m * up, low := (4 * m - below) * up, high := (4 * m + 2) * up
    den := 4 * power 2 (-x.exponent), closed := m % 2 = 0 }

/-- Whether `num / (den * scale)` lies in the interval, where `den` is the interval's own. -/
def Interval.contains (i : Interval) (num scale : Nat) : Bool :=
  let low := i.low * scale
  let high := i.high * scale
  if i.closed then low ≤ num && num ≤ high else low < num && num < high

/-- The number of times that `num` must be multiplied by ten to reach `den`. -/
def shiftsToReach (num den : Nat) : Nat → Nat
  | 0 => 0
  | fuel + 1 => if den ≤ num then 0 else shiftsToReach (num * 10) den fuel + 1

/-- The exponent of the leading decimal digit. -/
def Interval.leading (i : Interval) : Int :=
  if i.den ≤ i.value then digitCount (i.value / i.den) - 1
  else - (shiftsToReach i.value i.den 400 : Int)

/-- Of the two neighbours of the value among the multiples of the power of ten with exponent `k`, the
nearer one that lies in the interval, as the number of such multiples. -/
def Interval.neighbour? (i : Interval) (k : Int) : Option Nat :=
  let up := power 10 k
  let down := power 10 (-k)
  let num := i.value * down
  let den := i.den * up
  let below := num / den
  let inside (c : Nat) : Bool := i.contains (c * den) down
  let nearer := roundDiv num den
  if inside nearer then some nearer
  else if inside below then some below
  else if inside (below + 1) then some (below + 1)
  else none

/-- Searches for the fewest digits, from `n` on, of which at most `fuel` further ones are tried. -/
def Interval.search (i : Interval) (n : Nat) : Nat → Nat × Int
  | 0 => (0, 0)
  | fuel + 1 =>
    let k := i.leading + 1 - n
    match i.neighbour? k with
    | some c => (c, k)
    | none => i.search (n + 1) fuel

/-- Moves the zeros at the end of the digits into the exponent. -/
def dropZeros : Nat → Nat → Int → Nat × Int
  | 0, m, e => (m, e)
  | fuel + 1, m, e => if m ≠ 0 ∧ m % 10 = 0 then dropZeros fuel (m / 10) (e + 1) else (m, e)

/-- The fewest digits that read back as the finite double, as a natural number and the power of ten
it is multiplied by. -/
def shortest (x : Binary64) : Nat × Int :=
  if x.significand = 0 then (0, 0)
  else
    let (m, e) := x.interval.search 1 17
    dropZeros 20 m e

/-- How the digits of a number are laid out: in positions if the point is within bounds, as it always
is where there are none, and with an exponent otherwise. -/
structure Layout where
  /-- The point stands further right than this, counted from the beginning of the digits. -/
  low : Option Int
  /-- It stands no further right than this. -/
  high : Option Int

/-- Numbers from `1e-5` on and below `1e16` are written in positions. -/
def Layout.compact : Layout := ⟨some (-5), some 16⟩

/-- All numbers are written in positions. -/
def Layout.positional : Layout := ⟨none, none⟩

/-- Whether a number whose point stands `point` places after the beginning of its digits is written
in positions. -/
def Layout.isPositional (l : Layout) (point : Int) : Bool :=
  l.low.all (· < point) && l.high.all (point ≤ ·)

/-- The text of digits with the point `point` places after their beginning. -/
def renderPositional (digits : List Char) (point : Int) : List Char :=
  let zeros (n : Nat) := List.replicate n '0'
  if point ≤ 0 then '0' :: '.' :: zeros (-point).toNat ++ digits
  else if digits.length ≤ point.toNat then
    digits ++ zeros (point.toNat - digits.length) ++ ['.', '0']
  else digits.take point.toNat ++ '.' :: digits.drop point.toNat

/-- The text of digits with an exponent. -/
def renderScientific (digits : List Char) (point : Int) : List Char :=
  digits.take 1 ++ (if digits.length > 1 then '.' :: digits.drop 1 else []) ++
    'e' :: (toString (point - 1)).toList

/-- The text of a finite double. -/
def render (l : Layout) (x : Binary64) : String :=
  let (m, e) := x.shortest
  let digits := Nat.toDigits 10 m
  let point := e + digits.length
  let text := if m = 0 then ['0', '.', '0']
    else if l.isPositional point then renderPositional digits point
    else renderScientific digits point
  String.ofList (if x.isNegative then '-' :: text else text)

end ProviderAssets.Binary64
