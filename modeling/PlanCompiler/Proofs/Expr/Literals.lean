import Mathlib.Data.List.Basic
import PlanCompiler.Plan.Validity
import PlanCompiler.Proofs.Expr.Parts

/-!
# Literals of expressions

The values of float literals, of texts and of patterns matter for what an expression computes, but
not for how deep it nests and not for its type, nor for the reason why it has none.

## Main definitions

* `Expr.mapLiterals`: an expression with other floats and texts.

## Main results

* `Expr.depth_mapLiterals`, `Expr.infer_mapLiterals`, `Expr.typeInPlan_mapLiterals`: validation
  treats them alike.
-/

namespace PlanCompiler.Expr

section

variable (numbers : Binary64 → Binary64) (texts : String → String)

mutual

/-- An expression with other float literals, and with other texts and patterns. -/
def mapLiterals : Expr → Expr
  | .column index => .column index
  | .int value => .int value
  | .float value => .float (numbers value)
  | .date days => .date days
  | .text value => .text (texts value)
  | .binary op lhs rhs => .binary op lhs.mapLiterals rhs.mapLiterals
  | .junction connective operands => .junction connective (mapLiteralsOfEach operands)
  | .not operand => .not operand.mapLiterals
  | .case condition consequent alternative =>
    .case condition.mapLiterals consequent.mapLiterals alternative.mapLiterals
  | .like value pattern => .like value.mapLiterals (texts pattern)

/-- Some expressions with other literals. -/
def mapLiteralsOfEach : List Expr → List Expr
  | [] => []
  | first :: rest => first.mapLiterals :: mapLiteralsOfEach rest

end

/-- The literals of expressions are replaced one by one. -/
@[simp]
theorem mapLiteralsOfEach_eq_map (expressions : List Expr) :
    mapLiteralsOfEach numbers texts expressions = expressions.map (mapLiterals numbers texts) := by
  induction expressions with
  | nil => rfl
  | cons first rest ih => rw [mapLiteralsOfEach, ih, List.map_cons]

/-- Replacing literals leaves the depth. -/
theorem depth_mapLiterals (e : Expr) : (e.mapLiterals numbers texts).depth = e.depth := by
  induction e with
  | column | int | float | date | text => rfl
  | binary op lhs rhs left right => rw [mapLiterals, depth, depth, left, right]
  | junction connective operands inside =>
    -- the operands keep their depths, and with them the greatest one
    have deepest : maxDepthOf (operands.map (mapLiterals numbers texts)) = maxDepthOf operands := by
      induction operands with
      | nil => rfl
      | cons first rest ih =>
        obtain ⟨firstSame, others⟩ := List.forall_mem_cons.1 inside
        rw [List.map_cons, maxDepthOf, maxDepthOf, firstSame, ih others]
    rw [mapLiterals, mapLiteralsOfEach_eq_map, depth, depth, deepest]
  | not operand inside => rw [mapLiterals, depth, depth, inside]
  | case condition consequent alternative test left right =>
    rw [mapLiterals, depth, depth, test, left, right]
  | like value pattern inside => rw [mapLiterals, depth, depth, inside]

/-- The values of literals do not take part in typing. -/
theorem infer_mapLiterals (input : Schema) (e : Expr) :
    (e.mapLiterals numbers texts).infer input = e.infer input := by
  induction e with
  | column | int | float | date | text => rfl
  | binary op lhs rhs left right => rw [mapLiterals, infer, infer, left, right]
  | junction connective operands inside =>
    -- the operands keep their types, so they pass the same check
    have required : requireBools input (operands.map (mapLiterals numbers texts)) =
        requireBools input operands := by
      induction operands with
      | nil => rfl
      | cons first rest ih =>
        obtain ⟨firstSame, others⟩ := List.forall_mem_cons.1 inside
        rw [List.map_cons, requireBools, requireBools, firstSame, ih others]
    rw [mapLiterals, mapLiteralsOfEach_eq_map, infer, infer, required, List.isEmpty_map]
  | not operand inside => rw [mapLiterals, infer, infer, inside]
  | case condition consequent alternative test left right =>
    rw [mapLiterals, infer, infer, test, left, right]
  | like value pattern inside => rw [mapLiterals, infer, infer, inside]

/-- Replacing literals leaves the type. -/
theorem typeInPlan_mapLiterals (input : Schema) (e : Expr) :
    (e.mapLiterals numbers texts).typeInPlan input = e.typeInPlan input := by
  rw [typeInPlan, typeInPlan, depth_mapLiterals, infer_mapLiterals]

/-- The parts of an expression with other literals are those of the expression, with other
literals. -/
theorem parts_mapLiterals (e : Expr) :
    (e.mapLiterals numbers texts).parts = e.parts.map (mapLiterals numbers texts) := by
  induction e with
  | column | int | float | date | text => rfl
  | binary op lhs rhs left right => simp [mapLiterals, parts, left, right]
  | junction connective operands inside =>
    have each : (operands.map (mapLiterals numbers texts)).flatMap parts =
        (operands.flatMap parts).map (mapLiterals numbers texts) := by
      rw [List.flatMap_map, List.map_flatMap]
      exact List.flatMap_congr inside
    simp [mapLiterals, parts, each]
  | not operand inside => simp [mapLiterals, parts, inside]
  | case condition consequent alternative test left right =>
    simp [mapLiterals, parts, test, left, right]
  | like value pattern inside => simp [mapLiterals, parts, inside]

end

end PlanCompiler.Expr
