import PlanCompiler.Binary64.Text

/-!
# Literals of the generated program

How constants of a plan are written in C. A string literal only has printable ASCII characters
between its quotes: quotes, backslashes and question marks are escaped, the latter so that no
trigraph arises, and every other byte becomes an escape of three octal digits, which no digit
after it can extend.
-/

namespace PlanCompiler.Code

/-- A byte inside a string literal. -/
def stringByte (byte : UInt8) : List Char :=
  if byte = 0x22 then ['\\', '"']
  else if byte = 0x5C then ['\\', '\\']
  else if byte = 0x3F then ['\\', '?']
  else if 0x20 ≤ byte ∧ byte ≤ 0x7E then [Char.ofNat byte.toNat]
  else '\\' :: (Numeral.octalByte byte).toList

/-- A string literal for the UTF-8 bytes of a text. -/
def stringLiteral (s : String) : String :=
  String.ofList ('"' :: (s.toUTF8.data.toList.flatMap stringByte ++ ['"']))

/-- An integer literal. The least integer has no literal of its own, only a macro. -/
def intLiteral (n : Int64) : String :=
  if n = Int64.minValue then "INT64_MIN" else "INT64_C(" ++ toString n.toInt ++ ")"

/-- Float literals have the shortest digits that read back; powers of ten are written from
`1e16` on and below `1e-4`. -/
def floatFormat : FloatFormat :=
  { lowest := -4, beyond := 16, plus := false, width := 1, tie := .up }

/-- A float literal. -/
def floatLiteral (x : Binary64) : String :=
  if x.isNaN then "NAN"
  else if x.isInfinite then if x.isNegative then "(-HUGE_VAL)" else "HUGE_VAL"
  else "(" ++ x.finiteText floatFormat ++ ")"

/-- A date literal: its day number. -/
def dateLiteral (days : Int32) : String :=
  "((int32_t)" ++ toString days.toInt ++ ")"

end PlanCompiler.Code
