import PlanCompiler.Binary64.Shortest
import PlanCompiler.Numeral

/-!
# Floating point numbers as text

Writing goes through the shortest decimal that reads back, laid out by a `FloatFormat`. Numbers
without a fraction can also be written out in full.

Reading takes the usual decimal notation: digits with an optional point and an optional power of
ten, a sign, and the words for infinity and NaN in any case. The result is the number nearest to
the exact value.
-/

namespace PlanCompiler

/-- Layout of a decimal: where powers of ten are written, and how. -/
structure FloatFormat where
  /-- Lowest exponent of the first digit that is written without a power of ten. -/
  lowest : Int
  /-- Lowest exponent of the first digit above the range written without a power of ten. -/
  beyond : Int
  /-- A positive power of ten has a plus sign. -/
  plus : Bool
  /-- Least number of digits of the power of ten. -/
  width : Nat
  /-- Choice between two shortest decimals that are equally near. -/
  tie : TieRule

namespace Decimal

/-- The digits with their point, if needed with zeros on either side. A number without a
fraction ends in `.0`. -/
def positional (d : Decimal) : String :=
  let digits := Nat.toDigits 10 d.digits
  if 0 ≤ d.exponent then
    String.ofList (digits ++ List.replicate d.exponent.toNat '0') ++ ".0"
  else
    let places := (-d.exponent).toNat
    let filled := List.replicate (places + 1 - digits.length) '0' ++ digits
    String.ofList (filled.take (filled.length - places)) ++ "." ++
      String.ofList (filled.drop (filled.length - places))

/-- One digit before the point and the power of ten after the letter e. -/
def scientific (format : FloatFormat) (d : Decimal) : String :=
  let fraction := (Nat.toDigits 10 d.digits).drop 1
  let sign := if d.leading < 0 then "-" else if format.plus then "+" else ""
  String.ofList ((Nat.toDigits 10 d.digits).take 1) ++
    (if fraction = [] then "" else "." ++ String.ofList fraction) ++
    "e" ++ sign ++ Numeral.zeroFill format.width (toString d.leading.natAbs)

/-- The text of a decimal in a format. -/
def text (format : FloatFormat) (d : Decimal) : String :=
  if format.lowest ≤ d.leading ∧ d.leading < format.beyond then d.positional
  else d.scientific format

end Decimal

namespace Binary64

/-- The minus sign of a number with the sign bit set. -/
def signText (x : Binary64) : String := if x.isNegative then "-" else ""

/-- A finite number in a format; zero is written with one place. -/
def finiteText (format : FloatFormat) (x : Binary64) : String :=
  x.signText ++ if x.isZero then "0.0" else (x.shortest format.tie).text format

/-- A number without a fraction, written out in full with one place. -/
def integralText (x : Binary64) : String :=
  x.signText ++ toString (x.ratio.1 / x.ratio.2) ++ ".0"

/-- Power of ten that a mark e introduces, and none if the text ends before it. -/
def exponentOf? : List Char → Option Int
  | [] => some 0
  | mark :: rest =>
    if mark = 'e' ∨ mark = 'E' then
      match rest with
      | '-' :: digits => (Numeral.natural? digits).map fun n => -(n : Int)
      | '+' :: digits => (Numeral.natural? digits).map fun n => (n : Int)
      | digits => (Numeral.natural? digits).map fun n => (n : Int)
    else none

/-- The number nearest to `digits * 10 ^ exponent`. Powers of ten that put every such number
out of range are not computed. -/
def ofDecimal (negative : Bool) (d : Decimal) : Binary64 :=
  if d.digits = 0 ∨ d.leading < -330 then zero negative
  else if 310 < d.leading then infinity negative
  else ofRatio negative (d.digits * Nat.pow 10 d.exponent.toNat) (Nat.pow 10 (-d.exponent).toNat)

/-- Digits with an optional point among, before or after them, and the power of ten. -/
def ofUnsigned? (negative : Bool) (chars : List Char) : Option Binary64 := do
  let whole := chars.takeWhile Char.isDigit
  let afterWhole := chars.dropWhile Char.isDigit
  let (fraction, afterFraction) := match afterWhole with
    | '.' :: rest => (rest.takeWhile Char.isDigit, rest.dropWhile Char.isDigit)
    | _ => ([], afterWhole)
  let digits ← Numeral.natural? (whole ++ fraction)
  let power ← exponentOf? afterFraction
  return ofDecimal negative { digits, exponent := power - fraction.length }

/-- The words for infinity and NaN, in any case. -/
def ofWord? (negative : Bool) (chars : List Char) : Option Binary64 :=
  match String.ofList (chars.map Char.toLower) with
  | "inf" | "infinity" => some (infinity negative)
  | "nan" => some (quietNaN negative)
  | _ => none

/-- Reads a number: an optional sign, then decimal notation or a word. -/
def ofText? (chars : List Char) : Option Binary64 :=
  let (negative, rest) := match chars with
    | '-' :: rest => (true, rest)
    | '+' :: rest => (false, rest)
    | _ => (false, chars)
  ofUnsigned? negative rest <|> ofWord? negative rest

end Binary64

end PlanCompiler
