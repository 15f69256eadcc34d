import PlanCompiler.Binary64.Basic

/-!
# Shortest decimals

The decimals that read back as a given number fill an interval around it: the points that lie
nearer to the number than to its neighbours, with both ends if the significand is even. Among
the decimals of that interval `Binary64.shortest` takes one with the fewest digits, and among
those the one nearest to the number.

For each count of digits only the two decimals next to the number have to be tried, since if any
decimal of that many digits lies in the interval then one of these two does. Seventeen digits
always suffice.
-/

namespace PlanCompiler

/-- The number `digits * 10 ^ exponent`. -/
structure Decimal where
  /-- The significant digits, read as a natural number. -/
  digits : Nat
  /-- The power of ten that scales them. -/
  exponent : Int
deriving DecidableEq, Repr

/-- Which of two equally near decimals is taken. -/
inductive TieRule where
  /-- The larger one. -/
  | up
  /-- The one whose last digit is even. -/
  | even
deriving DecidableEq, Repr

namespace Decimal

/-- Number of digits of a natural number, one for zero. -/
def digitCount (n : Nat) : Nat := (Nat.toDigits 10 n).length

/-- The greatest `k` with `10 ^ k ≤ numerator / denominator`, for a positive ratio. -/
def magnitude (numerator denominator : Nat) : Int :=
  if denominator ≤ numerator then (digitCount (numerator / denominator) : Int) - 1
  else -(digitCount ((denominator + numerator - 1) / numerator - 1) : Int)

/-- The decimal without trailing zeros among its digits, at most `rounds` of them dropped. -/
def dropZeros (rounds : Nat) (d : Decimal) : Decimal :=
  match rounds with
  | 0 => d
  | rounds + 1 =>
    if d.digits ≠ 0 ∧ d.digits % 10 = 0 then
      dropZeros rounds { digits := d.digits / 10, exponent := d.exponent + 1 }
    else d

/-- The exponent of the first digit. -/
def leading (d : Decimal) : Int := d.exponent + digitCount d.digits - 1

end Decimal

namespace Binary64

/-- The interval of the decimals that read back as a number, in quarters of its last place:
`low ≤ x ≤ high` in units of `2 ^ (exponent - 2)`, the ends belonging to it if `closed`. -/
structure Interval where
  low : Nat
  high : Nat
  closed : Bool

/-- The rounding interval of a finite number. Below a power of two the numbers lie twice as
dense, which halves the gap on that side. -/
def interval (x : Binary64) : Interval :=
  let m := x.significand
  { low := if m = leadingBit ∧ 1 < x.biasedExponent then 4 * m - 1 else 4 * m - 2
    high := 4 * m + 2
    closed := m % 2 = 0 }

/-- A decimal and a multiple of a quarter of the last place, as integers in a common unit. -/
def inCommonUnit (x : Binary64) (d : Decimal) (quarters : Nat) : Nat × Nat :=
  let e := x.exponent - 2
  (d.digits * Nat.pow 10 d.exponent.toNat * Nat.pow 2 (-e).toNat,
    quarters * Nat.pow 2 e.toNat * Nat.pow 10 (-d.exponent).toNat)

/-- A decimal lies in the rounding interval. -/
def reads (x : Binary64) (d : Decimal) : Bool :=
  let i := x.interval
  let (value, low) := x.inCommonUnit d i.low
  let (_, high) := x.inCommonUnit d i.high
  if i.closed then low ≤ value ∧ value ≤ high else low < value ∧ value < high

/-- The better of the decimals on a grid that enclose a number, if any reads back. -/
def onGrid? (tie : TieRule) (x : Binary64) (k : Int) : Option Decimal :=
  -- The number is at least `below` and less than `above`.
  let (num, den) := x.ratio
  let below : Decimal :=
    { digits := num * Nat.pow 10 (-k).toNat / (den * Nat.pow 10 k.toNat), exponent := k }
  let above : Decimal := { digits := below.digits + 1, exponent := k }
  match x.reads below, x.reads above with
  | true, true =>
    -- Both read back: the number is compared with the middle between them, doubled.
    let (middle, value) := x.inCommonUnit { digits := 2 * below.digits + 1, exponent := k }
      (2 * (4 * x.significand))
    if value < middle then some below
    else if middle < value then some above
    else match tie with
      | .up => some above
      | .even => if below.digits % 2 = 0 then some below else some above
  | true, false => some below
  | false, true => some above
  | false, false => none

/-- The shortest decimal that reads back as a finite number other than zero. -/
def shortest (tie : TieRule) (x : Binary64) : Decimal :=
  -- The grid of one digit comes first, each further one has a place more.
  let top := Decimal.magnitude x.ratio.1 x.ratio.2
  let found := (List.range 17).findSome? fun (more : Nat) => x.onGrid? tie (top - more)
  (found.getD { digits := x.significand, exponent := 0 }).dropZeros 17

end Binary64

end PlanCompiler
