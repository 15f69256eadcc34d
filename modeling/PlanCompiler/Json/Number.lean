import PlanCompiler.Binary64.Arithmetic
import PlanCompiler.Binary64.Text
import PlanCompiler.Json.Text

/-!
# Numbers of JSON

Integers that fit into 64 bits stay integers; all other numbers become floats. The digits are
collected in an integer of 64 bits, and once it is full the remaining digits only count for the
power of ten. The integer is then scaled by that power in floating point, at most 308 places at a
time. A number beyond the largest float is refused.
-/

namespace PlanCompiler.Json

/-- A number of a JSON text. -/
inductive Number where
  /-- A natural number below 2^64. -/
  | natural (n : Nat)
  /-- The negative of a number from 1 to 2^63. -/
  | negative (n : Nat)
  /-- Any other number. -/
  | float (x : Binary64)
deriving DecidableEq, Repr

/-- Appends digits to a number as long as it stays below 2^64; the second result is how many. -/
def absorb (n : Nat) : List Char → Nat × Nat
  | [] => (n, 0)
  | digit :: rest =>
    let longer := 10 * n + (digit.toNat - '0'.toNat)
    if longer < UInt64.size then
      let (result, count) := absorb longer rest
      (result, count + 1)
    else (n, 0)

/-- A float times a power of ten, if it is finite. -/
def scale (x : Binary64) (places : Int) : Option Binary64 :=
  if 0 ≤ places then
    if places ≤ 308 then
      let scaled := x.mul (.tenTo places.toNat)
      if scaled.isInfinite then none else some scaled
    else if x.isZero then some x
    else none
  else if -308 ≤ places then some (x.div (.tenTo (-places).toNat))
  else if x.isZero then some x
  else scale (x.div (.tenTo 308)) (places + 308)
termination_by (-places).toNat

/-- The float with given digits and power of ten. -/
def decimalNumber (isNegative : Bool) (digits : Nat) (places : Int) (rest : List Char) :
    Except Fault (Number × List Char) :=
  match scale (.ofNat digits) places with
  | some x => .ok (.float (if isNegative then x.neg else x), rest)
  | none => .error .malformed

/-- Reads the power of ten after the letter `e`. -/
def powerOfTen (text : List Char) : Except Fault (Int × List Char) :=
  let (isNegative, text) := match text with
    | '+' :: rest => (false, rest)
    | '-' :: rest => (true, rest)
    | _ => (false, text)
  let digits := text.takeWhile Char.isDigit
  if text = [] then .error .incomplete
  else if digits = [] then .error .malformed
  else
    let n : Int := Nat.ofDigitChars 10 digits 0
    .ok (if isNegative then -n else n, text.dropWhile Char.isDigit)

/-- Reads what may follow the digits of a float. -/
def scaledNumber (isNegative : Bool) (digits : Nat) (places : Int) (text : List Char) :
    Except Fault (Number × List Char) :=
  match text with
  | 'e' :: text | 'E' :: text => do
    let (more, rest) ← powerOfTen text
    decimalNumber isNegative digits (places + more) rest
  | _ => decimalNumber isNegative digits places text

/-- Reads a number, after its minus sign if it has one. -/
def number (isNegative : Bool) (text : List Char) : Except Fault (Number × List Char) :=
  let whole := text.takeWhile Char.isDigit
  let rest := text.dropWhile Char.isDigit
  if text = [] then .error .incomplete
  else if whole = [] ∨ (whole.head? = some '0' ∧ 1 < whole.length) then .error .malformed
  else
    let (digits, count) := absorb 0 whole
    -- Digits that were not absorbed stand for zeros.
    let dropped : Int := whole.length - count
    match rest with
    | '.' :: text =>
      let fraction := text.takeWhile Char.isDigit
      if text = [] then .error .incomplete
      else if fraction = [] then .error .malformed
      else
        -- Digits of the fraction that were not absorbed change nothing.
        let (digits, count) := absorb digits fraction
        scaledNumber isNegative digits (dropped - count) (text.dropWhile Char.isDigit)
    | 'e' :: _ | 'E' :: _ => scaledNumber isNegative digits dropped rest
    | _ =>
      if dropped ≠ 0 then decimalNumber isNegative digits dropped rest
      else if ¬ isNegative then .ok (.natural digits, rest)
      else if 0 < digits ∧ digits ≤ 0x8000000000000000 then .ok (.negative digits, rest)
      else .ok (.float (Binary64.ofNat digits).neg, rest)

end PlanCompiler.Json
