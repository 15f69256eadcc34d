import PlanCompiler.Binary64.Text
import PlanCompiler.Calendar
import PlanCompiler.Expr.Basic
import PlanCompiler.Text.Quoted

/-!
# Printed expressions

Expressions in the notation of text plans, such as `(and (> $0 10) (like $1 '%o''k%'))`. Float
literals always have a point or are one of the words `inf`, `-inf` and `NaN`, so that they
cannot be taken for integers; they are written without powers of ten. Printing fails only for
date literals beyond the calendar.
-/

namespace PlanCompiler

namespace Binary64

/-- Float literals of plans never use powers of ten; the bounds lie beyond all finite numbers. -/
def planFormat : FloatFormat :=
  { lowest := -400, beyond := 400, plus := false, width := 1, tie := .up }

/-- A float literal of a plan. -/
def planText (x : Binary64) : String :=
  if x.isNaN then "NaN"
  else if x.isInfinite then x.signText ++ "inf"
  else if x.isIntegral then x.integralText
  else x.finiteText planFormat

end Binary64

namespace Expr

mutual

/-- The text of an expression. -/
def print : Expr → Except Overflow String
  | .column index => .ok ("$" ++ toString index.toNat)
  | .int value => .ok (toString value.toInt)
  | .float value => .ok value.planText
  | .date days => do .ok ("date'" ++ (← Calendar.dateText days) ++ "'")
  | .text value => .ok (Text.quoted value)
  | .binary op lhs rhs => do
    .ok ("(" ++ op.symbol ++ " " ++ (← lhs.print) ++ " " ++ (← rhs.print) ++ ")")
  | .junction connective operands => do
    .ok ("(" ++ connective.word ++ (← printEach operands) ++ ")")
  | .not operand => do .ok ("(not " ++ (← operand.print) ++ ")")
  | .case condition consequent alternative => do
    .ok ("(case " ++ (← condition.print) ++ " " ++ (← consequent.print) ++ " " ++
      (← alternative.print) ++ ")")
  | .like value pattern => do
    .ok ("(like " ++ (← value.print) ++ " " ++ Text.quoted pattern ++ ")")

/-- The texts of some expressions, each after a space. -/
def printEach : List Expr → Except Overflow String
  | [] => .ok ""
  | first :: rest => do .ok (" " ++ (← first.print) ++ (← printEach rest))

end

end Expr

end PlanCompiler
