import PlanCompiler.DataType
import PlanCompiler.Expr.Basic

/-!
# Types of expressions

`Expr.infer` computes the type of an expression over the columns of a row, or the first reason
why it has none:

* an integer mixed with a float in arithmetic widens to a float;
* a date plus or minus days is a date, and the difference of two dates is a number of days;
* comparisons yield truth values, and truth values themselves only support `=` and `!=`;
* text supports comparisons and `like` but no arithmetic;
* connectives, negation and the condition of a case require truth values.
-/

namespace PlanCompiler

/-- Why an expression has no type. -/
inductive TypeError where
  /-- The row has no column of that position. -/
  | columnOutOfRange (index : UInt32) (width : Nat)
  /-- The operator does not take operands of these types. -/
  | undefinedOperator (op : BinaryOp) (lhs rhs : DataType)
  /-- A connective joins no operands. -/
  | emptyJunction
  /-- A truth value is required. -/
  | notBool (found : DataType)
  /-- The branches of a case have no common type. -/
  | branchesDiffer (consequent alternative : DataType)
  /-- Only text can be matched against a pattern. -/
  | notText (found : DataType)
deriving DecidableEq, Repr

namespace TypeError

/-- The wording of a typing error. -/
def message : TypeError → String
  | .columnOutOfRange index width =>
    "column $" ++ toString index.toNat ++ " out of range, input has " ++ toString width ++
      " columns"
  | .undefinedOperator op lhs rhs =>
    "operator " ++ op.symbol ++ " is not defined for " ++ lhs.name ++ " and " ++ rhs.name
  | .emptyJunction => "empty boolean list"
  | .notBool found => "expected bool, found " ++ found.name
  | .branchesDiffer consequent alternative =>
    "case branches have incompatible types " ++ consequent.name ++ " and " ++ alternative.name
  | .notText found => "like is not defined for " ++ found.name

end TypeError

namespace BinaryOp

/-- Type of the result of an operator on operands of given types, if it is defined for them. -/
def resultType? (op : BinaryOp) (lhs rhs : DataType) : Option DataType :=
  if op.isComparison then
    if lhs.isNumeric ∧ rhs.isNumeric then some .bool
    else match lhs, rhs with
      | .date, .date | .text, .text => some .bool
      | .bool, .bool => if op = .eq ∨ op = .ne then some .bool else none
      | _, _ => none
  else match op, lhs, rhs with
    | _, .int, .int => some .int
    | _, .int, .float | _, .float, .int | _, .float, .float => some .float
    | .add, .date, .int | .add, .int, .date | .sub, .date, .int => some .date
    | .sub, .date, .date => some .int
    | _, _, _ => none

end BinaryOp

namespace Expr

/-- A truth value is required. -/
def requireBool (type : DataType) : Except TypeError Unit :=
  if type = .bool then .ok () else .error (.notBool type)

mutual

/-- Type of an expression over a row with columns of given types. Operands are typed from left
to right, and the first error is reported. -/
def infer (input : Schema) : Expr → Except TypeError DataType
  | .column index =>
    match input[index.toNat]? with
    | some type => .ok type
    | none => .error (.columnOutOfRange index input.length)
  | .int _ => .ok .int
  | .float _ => .ok .float
  | .date _ => .ok .date
  | .text _ => .ok .text
  | .binary op lhs rhs => do
    let l ← lhs.infer input
    let r ← rhs.infer input
    match op.resultType? l r with
    | some type => .ok type
    | none => .error (.undefinedOperator op l r)
  | .junction _ operands => do
    if operands.isEmpty then .error .emptyJunction
    else
      requireBools input operands
      .ok .bool
  | .not operand => do
    requireBool (← operand.infer input)
    .ok .bool
  | .case condition consequent alternative => do
    requireBool (← condition.infer input)
    let a ← consequent.infer input
    let b ← alternative.infer input
    match DataType.unify? a b with
    | some type => .ok type
    | none => .error (.branchesDiffer a b)
  | .like value _ => do
    let type ← value.infer input
    if type = .text then .ok .bool else .error (.notText type)

/-- Every one of some expressions is a truth value. -/
def requireBools (input : Schema) : List Expr → Except TypeError Unit
  | [] => .ok ()
  | first :: rest => do
    requireBool (← first.infer input)
    requireBools input rest

end

end Expr

end PlanCompiler
