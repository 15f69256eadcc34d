/-!
# Operators of expressions

The ten operators with two operands, and the two connectives that join any number of truth
values. Both have a spelling in text plans; operators have a tag in the binary plan format.
-/

namespace PlanCompiler

/-- Operator with two operands. -/
inductive BinaryOp where
  | eq
  | ne
  | lt
  | le
  | gt
  | ge
  | add
  | sub
  | mul
  | div
deriving DecidableEq, Repr

namespace BinaryOp

/-- Every operator, in the order of the tags. -/
def all : List BinaryOp := [.eq, .ne, .lt, .le, .gt, .ge, .add, .sub, .mul, .div]

/-- Tag of an operator in the binary plan format. -/
def tag : BinaryOp → UInt8
  | .eq => 0
  | .ne => 1
  | .lt => 2
  | .le => 3
  | .gt => 4
  | .ge => 5
  | .add => 6
  | .sub => 7
  | .mul => 8
  | .div => 9

/-- The operator that a tag stands for. -/
def ofTag? (tag : UInt8) : Option BinaryOp :=
  all.find? (·.tag = tag)

/-- Spelling of an operator in text plans. -/
def symbol : BinaryOp → String
  | .eq => "="
  | .ne => "!="
  | .lt => "<"
  | .le => "<="
  | .gt => ">"
  | .ge => ">="
  | .add => "+"
  | .sub => "-"
  | .mul => "*"
  | .div => "/"

/-- The operator with a given spelling. -/
def ofSymbol? (symbol : String) : Option BinaryOp :=
  all.find? (·.symbol = symbol)

/-- The operator compares its operands; the others compute with them. -/
def isComparison : BinaryOp → Bool
  | .eq | .ne | .lt | .le | .gt | .ge => true
  | .add | .sub | .mul | .div => false

/-- An operator is found exactly by its own tag. -/
theorem ofTag?_eq_some_iff {tag : UInt8} {op : BinaryOp} :
    ofTag? tag = some op ↔ op.tag = tag := by
  constructor
  · intro h
    simpa using List.find?_some h
  · rintro rfl
    cases op <;> rfl

/-- An operator is found exactly by its own symbol. -/
theorem ofSymbol?_eq_some_iff {symbol : String} {op : BinaryOp} :
    ofSymbol? symbol = some op ↔ op.symbol = symbol := by
  constructor
  · intro h
    simpa using List.find?_some h
  · rintro rfl
    cases op <;> decide

end BinaryOp

/-- Connective of a list of truth values. -/
inductive Connective where
  | and
  | or
deriving DecidableEq, Repr

namespace Connective

/-- Spelling of a connective in text plans. -/
def word : Connective → String
  | .and => "and"
  | .or => "or"

end Connective

end PlanCompiler
