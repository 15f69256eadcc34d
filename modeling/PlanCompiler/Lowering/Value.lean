import PlanCompiler.Code.Basic
import PlanCompiler.DataType

/-!
# Values in the generated program

How a value of each data type is represented, hashed and compared. A `Value` is an expression of
the program together with the data type of what it computes.
-/

namespace PlanCompiler

namespace DataType

/-- The type that represents a data type in the program. -/
def representation : DataType → String
  | .int => "int64_t"
  | .float => "double"
  | .date => "int32_t"
  | .text => "const char *"
  | .bool => "int"

/-- The least value of a data type, where the search for a greatest one starts. -/
def least : DataType → String
  | .int => "INT64_MIN"
  | .float => "(-HUGE_VAL)"
  | .date => "INT32_MIN"
  | .text => "NULL"
  | .bool => "0"

/-- The greatest value of a data type, where the search for a least one starts. -/
def greatest : DataType → String
  | .int => "INT64_MAX"
  | .float => "HUGE_VAL"
  | .date => "INT32_MAX"
  | .text => "NULL"
  | .bool => "1"

end DataType

/-- An expression of the program and the data type of its value. -/
structure Value where
  /-- The expression. -/
  code : Code
  /-- The data type. -/
  type : DataType
deriving DecidableEq, Repr

namespace Value

/-- The value converted to another data type. -/
def convert (value : Value) (type : DataType) : Code :=
  if value.type = type then value.code
  else "((" ++ type.representation ++ ")" ++ value.code ++ ")"

/-- The hash of a value. -/
def hash (value : Value) : Code :=
  match value.type with
  | .float => .help .hashFloat [value.code]
  | .text => .help .hashText [value.code]
  | .int | .date | .bool => .help .hashInt ["(int64_t)" ++ value.code]

/-- The condition that two keys of a data type are equal. -/
def sameKey (type : DataType) (a b : Code) : Code :=
  match type with
  | .text => "(strcmp(" ++ a ++ ", " ++ b ++ ") == 0)"
  | .int | .float | .date | .bool => "(" ++ a ++ " == " ++ b ++ ")"

end Value

end PlanCompiler
