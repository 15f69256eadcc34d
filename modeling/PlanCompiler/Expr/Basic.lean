import PlanCompiler.Binary64.Basic
import PlanCompiler.Expr.Operator

/-!
# Expressions

Scalar expressions over the columns of an operator's input, with their nesting depth and with
`Expr.agrees`, the equality that compares float literals as numbers.
-/

namespace PlanCompiler

/-- Scalar expression evaluated against one row. -/
inductive Expr where
  /-- The value of an input column, by position. -/
  | column (index : UInt32)
  /-- An integer literal. -/
  | int (value : Int64)
  /-- A float literal. -/
  | float (value : Binary64)
  /-- A date literal, in days since 1970-01-01. -/
  | date (days : Int32)
  /-- A text literal. -/
  | text (value : String)
  /-- A comparison or a computation. -/
  | binary (op : BinaryOp) (lhs rhs : Expr)
  /-- All or any of some conditions. -/
  | junction (connective : Connective) (operands : List Expr)
  /-- The negation of a condition. -/
  | not (operand : Expr)
  /-- One of two values, chosen by a condition. -/
  | case (condition consequent alternative : Expr)
  /-- Match of a text against a constant pattern, in which `%` stands for any run of bytes and
  `_` for exactly one byte. -/
  | like (value : Expr) (pattern : String)
deriving Repr

namespace Expr

/-- Deepest nesting that plans may use. -/
def maxDepth : Nat := 64

mutual

/-- Nesting depth of an expression; a leaf counts as one. -/
def depth : Expr → Nat
  | .column _ | .int _ | .float _ | .date _ | .text _ => 1
  | .binary _ lhs rhs => 1 + max lhs.depth rhs.depth
  | .junction _ operands => 1 + maxDepthOf operands
  | .not operand => 1 + operand.depth
  | .case condition consequent alternative =>
    1 + max (max condition.depth consequent.depth) alternative.depth
  | .like value _ => 1 + value.depth

/-- Depth of the deepest of some expressions, zero if there are none. -/
def maxDepthOf : List Expr → Nat
  | [] => 0
  | first :: rest => max first.depth (maxDepthOf rest)

end

mutual

/-- Equality of expressions that compares float literals as numbers, so that a NaN agrees with
nothing and the two zeros agree. -/
def agrees : Expr → Expr → Bool
  | .column i, .column j => i = j
  | .int a, .int b => a = b
  | .float a, .float b => a.agrees b
  | .date a, .date b => a = b
  | .text a, .text b => a = b
  | .binary op a b, .binary op' a' b' => op = op' ∧ a.agrees a' ∧ b.agrees b'
  | .junction c as, .junction c' as' => c = c' ∧ agreesAll as as'
  | .not a, .not a' => a.agrees a'
  | .case a b c, .case a' b' c' => a.agrees a' ∧ b.agrees b' ∧ c.agrees c'
  | .like a p, .like a' p' => a.agrees a' ∧ p = p'
  | _, _ => false

/-- Lists of expressions that agree one by one. -/
def agreesAll : List Expr → List Expr → Bool
  | [], [] => true
  | a :: as, b :: bs => a.agrees b ∧ agreesAll as bs
  | _, _ => false

end

end Expr

end PlanCompiler
