import PlanCompiler.Proofs.Code.Alike
import PlanCompiler.Proofs.Lowering.Expr
import PlanCompiler.Proofs.Plan.Blanking

/-!
# Lowering of expressions without their texts

An expression and the blanked one are lowered to code that differs in the contents of literals
only. Which code is chosen depends on the types of values, and these are the same.

## Main definitions

* `Value.Alike`: values of one type whose code differs in the contents of literals only.

## Main results

* `Expr.endsAlike_lower_blanked`: the code of a blanked expression.
-/

namespace PlanCompiler

/-- Values of one type whose code differs in the contents of literals only. -/
structure Value.Alike (a b : Value) : Prop where
  code : a.code.masked = b.code.masked
  type : a.type = b.type

/-- A value is alike to itself. -/
theorem Value.Alike.refl (a : Value) : a.Alike a := ⟨rfl, rfl⟩

/-- Alike values are converted alike. -/
theorem Value.Alike.convert {a b : Value} (alike : a.Alike b) (type : DataType) :
    (a.convert type).masked = (b.convert type).masked := by
  rw [Value.convert, Value.convert, alike.type]
  split <;> simp [alike.code]

namespace BinaryOp

variable {lhs lhs' rhs rhs' : Value} (left : lhs.Alike lhs') (right : rhs.Alike rhs')
include left right

/-- Comparisons of alike values are alike. -/
theorem masked_lowerComparison (op : BinaryOp) :
    (op.lowerComparison lhs rhs).masked = (op.lowerComparison lhs' rhs').masked := by
  rw [lowerComparison, lowerComparison, left.type, right.type]
  split_ifs <;> simp [left.code, right.code, left.convert, right.convert]

/-- Arithmetic on alike values is lowered alike. -/
theorem endsAlike_lowerArithmetic (checked : Bool) (op : BinaryOp) :
    EndsAlike Value.Alike (op.lowerArithmetic checked lhs rhs)
      (op.lowerArithmetic checked lhs' rhs') := by
  have code := And.intro left.code right.code
  have converted := And.intro (left.convert .float) (right.convert .float)
  rw [lowerArithmetic, lowerArithmetic, left.type, right.type]
  split <;> try split_ifs
  all_goals first | exact .error _ _ | exact .ok ⟨by simp [code, converted], rfl⟩

/-- An operation on alike values is lowered alike. -/
theorem endsAlike_lower (checked : Bool) (op : BinaryOp) :
    EndsAlike Value.Alike (op.lower checked lhs rhs) (op.lower checked lhs' rhs') := by
  rw [lower, lower]
  split
  · exact .ok ⟨masked_lowerComparison left right op, rfl⟩
  · exact endsAlike_lowerArithmetic left right checked op

end BinaryOp

namespace Expr

variable (checked : Bool) (row : List Value)

/-- A blanked expression is lowered to the same code, up to the contents of literals. -/
theorem endsAlike_lower_blanked (e : Expr) :
    EndsAlike Value.Alike (e.lower checked row) (e.blanked.lower checked row) := by
  induction e with
  | column index =>
    rw [blanked, lower]
    split
    · exact .ok (.refl _)
    · exact .error _ _
  | int | float | date | text => exact .ok ⟨rfl, rfl⟩
  | binary op lhs rhs left right =>
    rw [blanked, lower, lower]
    exact left.bind fun l l' leftAlike => right.bind fun r r' rightAlike =>
      BinaryOp.endsAlike_lower leftAlike rightAlike checked op
  | junction connective operands inside =>
    rw [blanked, blankedEach_eq_map, lower, lower, lowerEach_eq_mapM, lowerEach_eq_mapM,
      List.mapM_map]
    refine (EndsAlike.mapM inside).bind fun parts parts' related => .ok ⟨?_, rfl⟩
    have codes : parts.map (Code.masked ∘ Value.code) = parts'.map (Code.masked ∘ Value.code) := by
      rw [← List.forall₂_eq_eq_eq, List.forall₂_map_left_iff, List.forall₂_map_right_iff]
      exact related.imp fun _ _ alike => alike.code
    simp [codes]
  | not operand inside =>
    rw [blanked, lower, lower]
    exact inside.bind fun value value' alike => .ok ⟨by simp [alike.code], rfl⟩
  | case condition consequent alternative test left right =>
    rw [blanked, lower, lower]
    refine test.bind fun t t' testAlike => left.bind fun l l' leftAlike =>
      right.bind fun r r' rightAlike => ?_
    -- which branch is taken depends on the types only, and these are the same
    rw [leftAlike.type, rightAlike.type]
    split
    · exact .ok ⟨by simp [testAlike.code, leftAlike.convert, rightAlike.convert], rfl⟩
    · exact .error _ _
  | like value pattern inside =>
    rw [blanked, lower, lower]
    exact inside.bind fun value value' alike => .ok ⟨by simp [alike.code], rfl⟩

/-- Expressions and those without strings are lowered alike. -/
theorem endsAlike_lowerEach_blanked (expressions : List Expr) :
    EndsAlike (List.Forall₂ Value.Alike) (lowerEach checked row expressions)
      (lowerEach checked row (blankedEach expressions)) := by
  rw [blankedEach_eq_map, lowerEach_eq_mapM, lowerEach_eq_mapM, List.mapM_map]
  exact .mapM fun e _ => endsAlike_lower_blanked checked row e

end Expr

end PlanCompiler
