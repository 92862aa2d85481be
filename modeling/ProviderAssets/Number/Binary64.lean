/-!
# Double-precision numbers

A number of the format binary64, kept as its bits, with exact conversions: a ratio of natural
numbers is rounded to the nearest double, a tie going to the even significand, and a finite double
is a significand times a power of two.
-/

namespace ProviderAssets

/-- A double-precision number. -/
structure Binary64 where
  /-- The sign, the exponent and the fraction, in this order. -/
  bits : UInt64
  deriving DecidableEq, Inhabited

namespace Binary64

/-- Whether the sign bit is set. -/
def isNegative (x : Binary64) : Bool := x.bits >>> 63 = 1

/-- The eleven bits of the exponent. -/
def exponentField (x : Binary64) : Nat := ((x.bits >>> 52) &&& 0x7FF).toNat

/-- The fifty-two bits below the leading one. -/
def fractionField (x : Binary64) : Nat := (x.bits &&& 0xFFFFFFFFFFFFF).toNat

/-- Whether the number is neither an infinity nor a NaN. -/
def isFinite (x : Binary64) : Bool := x.exponentField < 0x7FF

/-- Whether this is no number. -/
def isNaN (x : Binary64) : Bool := !x.isFinite && x.fractionField ≠ 0

/-- The leading bit of the significand of a number that is not tiny. It is not stored. -/
def leadingBit : Nat := 0x10000000000000

/-- The significand of a finite number. -/
def significand (x : Binary64) : Nat :=
  if x.exponentField = 0 then x.fractionField else x.fractionField + leadingBit

/-- The power of two that the significand of a finite number is multiplied by. -/
def exponent (x : Binary64) : Int := max x.exponentField 1 - 1075

/-- The number with the given sign, exponent field and fraction field. -/
def ofFields (negative : Bool) (exponent fraction : Nat) : Binary64 :=
  ⟨UInt64.ofNat ((if negative then 0x8000000000000000 else 0) + exponent * leadingBit + fraction)⟩

/-- Zero. -/
def zero (negative : Bool) : Binary64 := ofFields negative 0 0

/-- Infinity. -/
def infinity (negative : Bool) : Binary64 := ofFields negative 0x7FF 0

/-- No number. -/
def nan : Binary64 := ofFields false 0x7FF (leadingBit / 2)

/-- The natural number nearest to `num / den`; of two, the even one. -/
def roundDiv (num den : Nat) : Nat :=
  let q := num / den
  let r := num % den
  if 2 * r < den ∨ (2 * r = den ∧ q % 2 = 0) then q else q + 1

/-- The power of `base` with exponent `e`, or one if `e` is negative. Thus `power b e / power b (-e)`
is the power of `b` whatever the sign of `e`. -/
def power (base : Nat) (e : Int) : Nat := Nat.pow base e.toNat

/-- `num / den` rounded to a multiple of the power of two with exponent `e`, counted in such
multiples. -/
def roundAt (num den : Nat) (e : Int) : Nat := roundDiv (num * power 2 (-e)) (den * power 2 e)

/-- The double nearest to `num / den`, for positive `num` and `den`. -/
def ofRatio (negative : Bool) (num den : Nat) : Binary64 :=
  if num = 0 then zero negative
  else
    let guess : Int := (num.log2 : Int) - den.log2
    -- The quotient lies between the powers of two on both sides of the one with this exponent.
    let below : Bool := num * power 2 (-guess) < den * power 2 guess
    let top := if below then guess - 1 else guess
    let e := max (top - 52) (-1074)
    let m := roundAt num den e
    let (m, e) := if m = 2 * leadingBit then (leadingBit, e + 1) else (m, e)
    if e > 971 then infinity negative
    else if m < leadingBit then ofFields negative 0 m
    else ofFields negative (e + 1075).toNat (m - leadingBit)

/-- The number of decimal digits of `n`. -/
def digitCount (n : Nat) : Nat := (Nat.toDigits 10 n).length

/-- The double nearest to `m` times the power of ten with exponent `e`. -/
def ofDecimal (negative : Bool) (m : Nat) (e : Int) : Binary64 :=
  if m = 0 then zero negative
  else
    let top := e + digitCount m
    if top > 310 then infinity negative
    else if top < -330 then zero negative
    else ofRatio negative (m * power 10 e) (power 10 (-e))

/-- The magnitude of a finite number as a ratio. -/
def ratio (x : Binary64) : Nat × Nat :=
  (x.significand * power 2 x.exponent, power 2 (-x.exponent))

/-- The product of two finite numbers. -/
def mul (x y : Binary64) : Binary64 :=
  ofRatio (x.isNegative != y.isNegative) (x.ratio.1 * y.ratio.1) (x.ratio.2 * y.ratio.2)

/-- The quotient of two finite numbers, the second not zero. -/
def div (x y : Binary64) : Binary64 :=
  ofRatio (x.isNegative != y.isNegative) (x.ratio.1 * y.ratio.2) (x.ratio.2 * y.ratio.1)

/-- The number with the opposite sign. -/
def neg (x : Binary64) : Binary64 := ⟨x.bits ^^^ 0x8000000000000000⟩

/-- Whether two doubles are the same number, zero having no sign and a NaN being equal to none. -/
def isEqual (x y : Binary64) : Bool :=
  !x.isNaN && !y.isNaN &&
    (x = y || (x.significand = 0 && y.significand = 0 && x.isFinite && y.isFinite))

end Binary64

end ProviderAssets
