/-!
# Numerals

Integers as text. Writing is decimal, hexadecimal or octal with an optional least width; reading
takes decimal numerals of a bounded range: ASCII digits only, leading zeros allowed, a plus sign
allowed, and a minus sign where the range has negative numbers.
-/

namespace PlanCompiler.Numeral

/-- The digits of a number in a base up to sixteen, letters in lower case. -/
def inBase (base n : Nat) : String :=
  String.ofList (Nat.toDigits base n)

/-- A numeral filled up with leading zeros to a width. -/
def zeroFill (width : Nat) (numeral : String) : String :=
  String.ofList (List.replicate (width - numeral.length) '0') ++ numeral

/-- A number in hexadecimal. -/
def hex (n : Nat) : String :=
  inBase 16 n

/-- A byte as two hexadecimal digits. -/
def hexByte (byte : UInt8) : String :=
  zeroFill 2 (hex byte.toNat)

/-- A byte as three octal digits. -/
def octalByte (byte : UInt8) : String :=
  zeroFill 3 (inBase 8 byte.toNat)

/-- An integer in decimal, filled up with zeros between sign and digits so that the sign and the
digits together have at least the given width. -/
def signedWidth (width : Nat) (n : Int) : String :=
  if n < 0 then "-" ++ zeroFill (width - 1) (toString n.natAbs)
  else zeroFill width (toString n.natAbs)

/-- The value of a nonempty run of ASCII digits. -/
def natural? (digits : List Char) : Option Nat :=
  if digits ≠ [] ∧ digits.all Char.isDigit then some (Nat.ofDigitChars 10 digits 0) else none

/-- The value of a numeral below a bound, with an optional plus sign. -/
def below? (bound : Nat) (numeral : List Char) : Option Nat :=
  let digits := match numeral with
    | '+' :: rest => rest
    | _ => numeral
  (natural? digits).filter (· < bound)

/-- The value of a numeral from `-bound` up to but not including `bound`. -/
def within? (bound : Nat) (numeral : List Char) : Option Int :=
  match numeral with
  | '-' :: digits => ((natural? digits).filter (· ≤ bound)).map fun n => -(n : Int)
  | _ => (below? bound numeral).map fun n => (n : Int)

/-- An unsigned number of 32 bits. -/
def uint32? (numeral : List Char) : Option UInt32 :=
  (below? UInt32.size numeral).map UInt32.ofNat

/-- A signed number of 32 bits. -/
def int32? (numeral : List Char) : Option Int32 :=
  (within? 0x80000000 numeral).map Int32.ofInt

/-- A signed number of 64 bits. -/
def int64? (numeral : List Char) : Option Int64 :=
  (within? 0x8000000000000000 numeral).map Int64.ofInt

end PlanCompiler.Numeral
