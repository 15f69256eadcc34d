import PlanCompiler.Lowering.Expr
import PlanCompiler.Proofs.Expr.Typing

/-!
# Lowering of typed expressions

Lowering computes types on its own. On a row whose values have the types of the columns, it does
not fail on an expression that has a type, and the value it gives has that type.

## Main results

* `Expr.yields_lower`: a typed expression is lowered to a value of its type;
* `Expr.yields_lowerEach`: so are several ones.
-/

namespace PlanCompiler

/-- A comparison results in a truth value. -/
theorem BinaryOp.resultType?_of_isComparison {op : BinaryOp} {lhs rhs type : DataType}
    (comparison : op.isComparison = true) (defined : op.resultType? lhs rhs = some type) :
    type = .bool := by
  cases op <;> first | (cases comparison; done) | skip
  all_goals cases lhs <;> cases rhs <;> cases defined <;> rfl

/-- A computation that is defined for the types of two values is carried out. -/
theorem BinaryOp.yields_lowerArithmetic (checked : Bool) {op : BinaryOp} {lhs rhs : Value}
    {type : DataType} (arithmetic : op.isComparison = false)
    (defined : op.resultType? lhs.type rhs.type = some type) :
    Yields (op.lowerArithmetic checked lhs rhs) fun value => value.type = type := by
  obtain ⟨lhsCode, lhsType⟩ := lhs
  obtain ⟨rhsCode, rhsType⟩ := rhs
  -- what is left are the arithmetic operators, each at the types it is defined for
  cases op <;> first | (cases arithmetic; done) | skip
  all_goals cases lhsType <;> cases rhsType <;> cases defined
  all_goals cases checked <;> exact ⟨_, rfl, rfl⟩

/-- An operator that is defined for the types of two values is applied to them. -/
theorem BinaryOp.yields_lower (checked : Bool) {op : BinaryOp} {lhs rhs : Value} {type : DataType}
    (defined : op.resultType? lhs.type rhs.type = some type) :
    Yields (op.lower checked lhs rhs) fun value => value.type = type := by
  rw [lower]
  split
  · rename_i comparison
    exact .ok (resultType?_of_isComparison comparison defined).symm
  · rename_i arithmetic
    exact yields_lowerArithmetic checked (Bool.not_eq_true _ ▸ arithmetic) defined

namespace Expr

variable (checked : Bool) {row : List Value}

/-- Expressions are lowered one after the other. -/
theorem lowerEach_eq_mapM (expressions : List Expr) :
    lowerEach checked row expressions = expressions.mapM (lower checked row) := by
  induction expressions with
  | nil => rfl
  | cons first rest ih =>
    simp only [lowerEach, List.mapM_cons, ih]
    rfl

/-- A typed expression is lowered to a value of its type. -/
theorem yields_lower {e : Expr} {type : DataType}
    (typed : e.infer (row.map Value.type) = .ok type) :
    Yields (e.lower checked row) fun value => value.type = type := by
  induction e generalizing type with
  | column index =>
    rw [infer_column_eq_ok_iff, List.getElem?_map, Option.map_eq_some_iff] at typed
    obtain ⟨value, found, rfl⟩ := typed
    rw [lower, found]
    exact .ok rfl
  | int | float | date | text => exact .ok (Except.ok.inj typed)
  | binary op lhs rhs left right =>
    obtain ⟨l, r, leftTyped, rightTyped, defined⟩ := infer_binary_eq_ok_iff.1 typed
    rw [lower]
    refine (left leftTyped).bind fun l' leftType => (right rightTyped).bind fun r' rightType => ?_
    -- the operator was typed over the types of the operands, which their values keep
    rw [← leftType, ← rightType] at defined
    exact BinaryOp.yields_lower checked defined
  | junction connective operands inside =>
    obtain ⟨rfl, -, operandsTyped⟩ := infer_junction_eq_ok_iff.1 typed
    rw [lower, lowerEach_eq_mapM]
    have lowered := Yields.mapM fun operand member =>
      inside operand member (operandsTyped operand member)
    exact lowered.bind fun _ _ => .ok rfl
  | not operand inside =>
    obtain ⟨rfl, operandTyped⟩ := infer_not_eq_ok_iff.1 typed
    rw [lower]
    exact (inside operandTyped).bind fun _ _ => .ok rfl
  | case condition consequent alternative test left right =>
    obtain ⟨testTyped, a, b, leftTyped, rightTyped, common⟩ := infer_case_eq_ok_iff.1 typed
    rw [lower]
    refine (test testTyped).bind fun _ _ => (left leftTyped).bind fun l leftType =>
      (right rightTyped).bind fun r rightType => ?_
    -- the branches agree on a type, as they did when the plan was checked
    rw [leftType, rightType, common]
    exact .ok rfl
  | like value pattern inside =>
    obtain ⟨rfl, valueTyped⟩ := infer_like_eq_ok_iff.1 typed
    rw [lower]
    exact (inside valueTyped).bind fun _ _ => .ok rfl

/-- Typed expressions are lowered to values of their types. -/
theorem yields_lowerEach {expressions : List Expr} {types : Schema}
    (typed : List.Forall₂ (fun e type => e.infer (row.map Value.type) = .ok type)
      expressions types) :
    Yields (lowerEach checked row expressions) fun values => values.map Value.type = types := by
  induction typed with
  | nil => exact .ok rfl
  | cons first _ ih =>
    rw [lowerEach]
    refine (yields_lower checked first).bind fun value type => ih.bind fun values types => ?_
    exact .ok (congrArg₂ List.cons type types)

end Expr

end PlanCompiler
