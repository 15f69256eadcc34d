import PlanCompiler.Expr.Typing
import PlanCompiler.Lowering.Value

/-!
# Lowering of expressions

`Expr.lower` turns an expression over the columns of a row into an expression of the program,
given the values of the columns. The result is always enclosed: it is a name, a call, a literal
or stands in parentheses, so that it can become an operand as it is. Integer arithmetic wraps
around, by way of unsigned numbers; a checked division records a fault instead of trapping.

Lowering computes the types once more on its way and fails where it cannot; on expressions that
have a type it does not fail.
-/

namespace PlanCompiler

/-- Why something cannot be lowered. No plan gives rise to any of these. -/
inductive LoweringError where
  | columnOutOfRange (index : UInt32) (width : Nat)
  | branchesDiffer (consequent alternative : DataType)
  | undefinedOperator (op : BinaryOp) (lhs rhs : DataType)
  | joinKey (column : UInt32)
  | groupColumn (column : UInt32)
  | aggregateColumn (column : UInt32)
  | illTyped (reason : String)
deriving DecidableEq, Repr

namespace LoweringError

/-- The wording of a lowering error. -/
def message : LoweringError → String
  | .columnOutOfRange index width =>
    "cannot lower plan: column $" ++ toString index.toNat ++ " out of range for " ++
      toString width ++ " inputs"
  | .branchesDiffer consequent alternative =>
    "cannot lower plan: case branches " ++ consequent.name ++ " and " ++ alternative.name ++
      " differ"
  | .undefinedOperator op lhs rhs =>
    "cannot lower plan: operator " ++ op.symbol ++ " is not defined for " ++ lhs.name ++ " and " ++
      rhs.name
  | .joinKey column => "cannot lower plan: join key " ++ toString column.toNat ++ " out of range"
  | .groupColumn column =>
    "cannot lower plan: group column " ++ toString column.toNat ++ " out of range"
  | .aggregateColumn column =>
    "cannot lower plan: aggregate column " ++ toString column.toNat ++ " out of range"
  | .illTyped reason => "cannot lower plan: " ++ reason

end LoweringError

namespace BinaryOp

/-- Spelling of an operator in the program. -/
def spelling : BinaryOp → String
  | .eq => "=="
  | op => op.symbol

/-- A comparison of two values. Numbers of different types are compared as floats. -/
def lowerComparison (op : BinaryOp) (lhs rhs : Value) : Code :=
  if lhs.type = .text ∧ rhs.type = .text then
    "(strcmp(" ++ lhs.code ++ ", " ++ rhs.code ++ ") " ++ op.spelling ++ " 0)"
  else if lhs.type ≠ rhs.type ∧ lhs.type.isNumeric ∧ rhs.type.isNumeric then
    "(" ++ lhs.convert .float ++ " " ++ op.spelling ++ " " ++ rhs.convert .float ++ ")"
  else "(" ++ lhs.code ++ " " ++ op.spelling ++ " " ++ rhs.code ++ ")"

/-- A computation with two values. -/
def lowerArithmetic (checked : Bool) (op : BinaryOp) (lhs rhs : Value) :
    Except LoweringError Value :=
  match lhs.type, rhs.type with
  | .int, .int =>
    if op = .div then
      if checked then .ok { code := .help .divide [lhs.code, rhs.code], type := .int }
      else .ok { code := "(" ++ lhs.code ++ " / " ++ rhs.code ++ ")", type := .int }
    else
      -- Unsigned arithmetic wraps, signed overflow would be undefined.
      .ok
        { code := "((int64_t)((uint64_t)" ++ lhs.code ++ " " ++ op.spelling ++ " (uint64_t)" ++
            rhs.code ++ "))"
          type := .int }
  | .int, .float | .float, .int | .float, .float =>
    .ok
      { code := "(" ++ lhs.convert .float ++ " " ++ op.spelling ++ " " ++ rhs.convert .float ++ ")"
        type := .float }
  | .date, .date =>
    if op = .sub then
      .ok { code := "((int64_t)" ++ lhs.code ++ " - (int64_t)" ++ rhs.code ++ ")", type := .int }
    else .error (.undefinedOperator op .date .date)
  | .date, .int | .int, .date =>
    if op = .add ∨ op = .sub then
      .ok
        { code := "((int32_t)(" ++ lhs.code ++ " " ++ op.spelling ++ " " ++ rhs.code ++ "))"
          type := .date }
    else .error (.undefinedOperator op lhs.type rhs.type)
  | _, _ => .error (.undefinedOperator op lhs.type rhs.type)

/-- An operator applied to two values. -/
def lower (checked : Bool) (op : BinaryOp) (lhs rhs : Value) : Except LoweringError Value :=
  if op.isComparison then .ok { code := op.lowerComparison lhs rhs, type := .bool }
  else op.lowerArithmetic checked lhs rhs

end BinaryOp

/-- Spelling of a connective in the program, with a space on either side. -/
def Connective.spelling : Connective → String
  | .and => " && "
  | .or => " || "

namespace Expr

mutual

/-- The value of an expression on a row; `checked` guards divisions of integers. -/
def lower (checked : Bool) (row : List Value) : Expr → Except LoweringError Value
  | .column index =>
    match row[index.toNat]? with
    | some value => .ok value
    | none => .error (.columnOutOfRange index row.length)
  | .int value => .ok { code := Code.intLiteral value, type := .int }
  | .float value => .ok { code := Code.floatLiteral value, type := .float }
  | .date days => .ok { code := Code.dateLiteral days, type := .date }
  | .text value => .ok { code := .literal value, type := .text }
  | .binary op lhs rhs => do op.lower checked (← lhs.lower checked row) (← rhs.lower checked row)
  | .junction connective operands => do
    let parts ← lowerEach checked row operands
    .ok
      { code := "(" ++ .separated connective.spelling (parts.map Value.code) ++ ")"
        type := .bool }
  | .not operand => do
    let value ← operand.lower checked row
    .ok { code := "(!" ++ value.code ++ ")", type := .bool }
  | .case condition consequent alternative => do
    let test ← condition.lower checked row
    let a ← consequent.lower checked row
    let b ← alternative.lower checked row
    match DataType.unify? a.type b.type with
    | some type =>
      .ok
        { code := "(" ++ test.code ++ " ? " ++ a.convert type ++ " : " ++ b.convert type ++ ")"
          type }
    | none => .error (.branchesDiffer a.type b.type)
  | .like value pattern => do
    let value ← value.lower checked row
    .ok { code := .help .like [value.code, .literal pattern], type := .bool }

/-- The values of some expressions on a row. -/
def lowerEach (checked : Bool) (row : List Value) :
    List Expr → Except LoweringError (List Value)
  | [] => .ok []
  | first :: rest => do
    let value ← first.lower checked row
    .ok (value :: (← lowerEach checked row rest))

end

end Expr

end PlanCompiler
