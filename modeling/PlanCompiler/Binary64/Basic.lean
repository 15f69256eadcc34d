/-!
# Binary floating point numbers of 64 bits

A number is its bit pattern, so that every pattern, also each of the many NaN patterns, is a
value of its own and is kept as it is. A finite number stands for
`significand * 2 ^ exponent`, up to its sign.

`Binary64.agrees` is the equality of numbers: both zeros agree and a NaN agrees with nothing.
-/

namespace PlanCompiler

/-- A binary floating point number of 64 bits, given by its bit pattern. -/
structure Binary64 where
  /-- One bit of sign, eleven of exponent, fifty-two of fraction. -/
  bits : UInt64
deriving DecidableEq, Repr

namespace Binary64

/-- The leading bit of a significand, `2 ^ 52`, which is also the lowest bit of the exponent
field. -/
def leadingBit : Nat := 0x10000000000000

/-- The sign bit, `2 ^ 63`. -/
def signBit : Nat := 0x8000000000000000

/-- The magnitude of infinity; the magnitudes above it are NaN patterns. -/
def infinityMagnitude : Nat := 2047 * leadingBit

/-- The number with a sign and with the pattern of its other 63 bits. -/
def ofMagnitude (negative : Bool) (magnitude : Nat) : Binary64 :=
  ⟨UInt64.ofNat ((if negative then signBit else 0) + magnitude)⟩

/-- Zero of either sign. -/
def zero (negative : Bool) : Binary64 := ofMagnitude negative 0

/-- Infinity of either sign. -/
def infinity (negative : Bool) : Binary64 := ofMagnitude negative infinityMagnitude

/-- The quiet NaN without payload, of either sign. -/
def quietNaN (negative : Bool) : Binary64 :=
  ofMagnitude negative (infinityMagnitude + leadingBit / 2)

/-- The sign bit is set. -/
def isNegative (x : Binary64) : Bool := signBit ≤ x.bits.toNat

/-- The bits without the sign bit. -/
def magnitude (x : Binary64) : Nat := x.bits.toNat % signBit

/-- Not a number. -/
def isNaN (x : Binary64) : Bool := infinityMagnitude < x.magnitude

/-- Infinity of either sign. -/
def isInfinite (x : Binary64) : Bool := x.magnitude = infinityMagnitude

/-- A number other than infinity. -/
def isFinite (x : Binary64) : Bool := x.magnitude < infinityMagnitude

/-- Zero of either sign. -/
def isZero (x : Binary64) : Bool := x.magnitude = 0

/-- The exponent field. -/
def biasedExponent (x : Binary64) : Nat := x.magnitude / leadingBit

/-- The integer that is scaled by the exponent; numbers above the subnormal range have a leading
bit that is not stored. -/
def significand (x : Binary64) : Nat :=
  if x.biasedExponent = 0 then x.magnitude else leadingBit + x.magnitude % leadingBit

/-- The power of two that scales the significand. -/
def exponent (x : Binary64) : Int := (max x.biasedExponent 1 : Nat) - 1075

/-- Numerator and denominator of the size of a finite number. -/
def ratio (x : Binary64) : Nat × Nat :=
  (x.significand * Nat.pow 2 x.exponent.toNat, Nat.pow 2 (-x.exponent).toNat)

/-- A finite number without a fraction. -/
def isIntegral (x : Binary64) : Bool :=
  x.isFinite ∧ x.ratio.1 % x.ratio.2 = 0

/-- Equality of numbers: no NaN agrees with anything, and the two zeros agree. -/
def agrees (x y : Binary64) : Bool :=
  ¬ x.isNaN ∧ (x = y ∨ (x.isZero ∧ y.isZero))

/-- The finite number nearest to a ratio, and of two that are equally near the one with the even
significand. Ratios that round beyond the largest finite number give infinity. -/
def ofRatio (negative : Bool) (numerator denominator : Nat) : Binary64 :=
  if numerator = 0 then zero negative
  else
    -- With this exponent the quotient has 53 or 54 bits.
    let estimate : Int := (numerator.log2 : Int) - denominator.log2 - 53
    let quotientAt (e : Int) : Nat × Nat × Nat :=
      let num := numerator * Nat.pow 2 (-e).toNat
      let den := denominator * Nat.pow 2 e.toNat
      (num / den, num % den, den)
    -- Subnormal numbers share the lowest exponent and have fewer bits.
    let low := max estimate (-1074)
    let e := if (quotientAt low).1 < 2 * leadingBit then low else low + 1
    let (floor, rest, den) := quotientAt e
    let rounded := if 2 * rest < den ∨ (2 * rest = den ∧ floor % 2 = 0) then floor else floor + 1
    -- The leading bit, and a carry out of the significand, add one to the exponent field.
    ofMagnitude negative (min ((e + 1074).toNat * leadingBit + rounded) infinityMagnitude)

end Binary64

end PlanCompiler
