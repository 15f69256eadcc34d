import PlanCompiler.Proofs.Expr.Typing
import PlanCompiler.Proofs.Plan.Spanning
import Mathlib.Algebra.Ring.Nat

/-!
# Integer divisions of plans

Only the division of two integers can fault. A plan has as many of them as the conditions of its
filters and the expressions of its projections have, whether or not anything reads their values.
Since every node stands at one place of the tree of a plan, this is also how many the tree has.

## Main definitions

* `Expr.isIntegerDivision`, `Expr.integerDivisions`: the integer divisions of an expression;
* `Plan.integerDivisions`, `PlanTree.integerDivisions`: those of a plan and of a tree.

## Main results

* `Plan.integerDivisions_tree`: the tree of a plan has those of the plan.
-/

namespace PlanCompiler

namespace Expr

variable (input : Schema)

/-- A division whose two operands are integers, on rows of given types. -/
def isIntegerDivision : Expr → Bool
  | .binary .div lhs rhs =>
    (lhs.infer input).toOption = some .int ∧ (rhs.infer input).toOption = some .int
  | _ => false

/-- The number of integer divisions in an expression. -/
def integerDivisions (e : Expr) : Nat := e.parts.countP (isIntegerDivision input)

/-- The number of integer divisions in some expressions. -/
def integerDivisionsOfAll (expressions : List Expr) : Nat :=
  (expressions.map (integerDivisions input)).sum

variable {input}

/-- A binary operation counts itself, if it divides integers, and its two operands. -/
theorem integerDivisions_binary {op : BinaryOp} {lhs rhs : Expr} {l r : DataType}
    (left : lhs.infer input = .ok l) (right : rhs.infer input = .ok r) :
    (binary op lhs rhs).integerDivisions input =
      (if op = .div ∧ l = .int ∧ r = .int then 1 else 0) + lhs.integerDivisions input +
        rhs.integerDivisions input := by
  have isDivision : (binary op lhs rhs).isIntegerDivision input = true ↔
      op = .div ∧ l = .int ∧ r = .int := by
    cases op <;> simp [isIntegerDivision, left, right, Except.toOption]
  rw [integerDivisions, parts, List.countP_cons, List.countP_append, integerDivisions,
    integerDivisions, if_congr isDivision rfl rfl]
  omega

/-- A junction counts its operands. -/
theorem integerDivisions_junction (connective : Connective) (operands : List Expr) :
    (junction connective operands).integerDivisions input =
      integerDivisionsOfAll input operands := by
  rw [integerDivisions, parts, List.countP_cons, partsOfAll_eq_flatMap, List.countP_flatMap]
  rfl

/-- A negation counts its operand. -/
theorem integerDivisions_not (operand : Expr) :
    (not operand).integerDivisions input = operand.integerDivisions input := by
  rw [integerDivisions, parts, List.countP_cons]
  rfl

/-- A case counts its three parts. -/
theorem integerDivisions_case (condition consequent alternative : Expr) :
    (case condition consequent alternative).integerDivisions input =
      condition.integerDivisions input + consequent.integerDivisions input +
        alternative.integerDivisions input := by
  rw [integerDivisions, parts, List.countP_cons, List.countP_append, List.countP_append]
  rfl

/-- A pattern match counts its operand. -/
theorem integerDivisions_like (value : Expr) (pattern : String) :
    (like value pattern).integerDivisions input = value.integerDivisions input := by
  rw [integerDivisions, parts, List.countP_cons]
  rfl

end Expr

/-- The number of integer divisions in a tree. -/
def PlanTree.integerDivisions : PlanTree → Nat
  | .scan .. => 0
  | .filter _ predicate input => predicate.integerDivisions input.schema + input.integerDivisions
  | .project _ expressions input =>
    Expr.integerDivisionsOfAll input.schema expressions + input.integerDivisions
  | .join _ _ _ left right => left.integerDivisions + right.integerDivisions
  | .aggregate _ _ _ input => input.integerDivisions

namespace Plan

variable (plan : Plan)

/-- The number of integer divisions in a node. -/
def integerDivisionsOf : Node → Nat
  | .filter input predicate => predicate.integerDivisions (plan.schema input.toNat)
  | .project input expressions =>
    Expr.integerDivisionsOfAll (plan.schema input.toNat) expressions
  | .scan .. | .join .. | .aggregate .. => 0

/-- The number of integer divisions in all nodes of a plan. -/
def integerDivisions : Nat := (plan.nodes.map plan.integerDivisionsOf).sum

/-- The number of integer divisions in the node at a position. -/
def integerDivisionsAt (k : Nat) : Nat := (plan.nodes[k]?.map plan.integerDivisionsOf).getD 0

/-- The integer divisions at a position are those of the node there. -/
theorem integerDivisionsAt_of_getElem? {k : Nat} {node : Node}
    (found : plan.nodes[k]? = some node) :
    plan.integerDivisionsAt k = plan.integerDivisionsOf node := by
  rw [integerDivisionsAt, found, Option.map_some, Option.getD_some]

/-- A tree has the integer divisions of the nodes at its positions. -/
theorem Unfolds.integerDivisions_eq {plan : Plan} {k : Nat} {tree : PlanTree}
    (unfolds : plan.Unfolds k tree) :
    tree.integerDivisions = (tree.positions.map plan.integerDivisionsAt).sum := by
  -- an input of a node has in the tree the schema that it has in the plan
  induction unfolds with
  | scan found =>
    rw [PlanTree.positions, List.map_singleton, List.sum_singleton,
      plan.integerDivisionsAt_of_getElem? found]
    rfl
  | filter found unfolds ih =>
    rw [PlanTree.positions, List.map_cons, List.sum_cons, ← ih, PlanTree.integerDivisions,
      plan.integerDivisionsAt_of_getElem? found, unfolds.schema_eq]
    rfl
  | project found unfolds ih =>
    rw [PlanTree.positions, List.map_cons, List.sum_cons, ← ih, PlanTree.integerDivisions,
      plan.integerDivisionsAt_of_getElem? found, unfolds.schema_eq]
    rfl
  | join found unfoldsLeft unfoldsRight ihLeft ihRight =>
    rw [PlanTree.positions, List.map_cons, List.sum_cons, List.map_append, List.sum_append,
      ← ihLeft, ← ihRight, plan.integerDivisionsAt_of_getElem? found]
    exact (Nat.zero_add _).symm
  | aggregate found unfolds ih =>
    rw [PlanTree.positions, List.map_cons, List.sum_cons, ← ih,
      plan.integerDivisionsAt_of_getElem? found]
    exact (Nat.zero_add _).symm

/-- The tree of a plan has the integer divisions of the plan. -/
theorem integerDivisions_tree : plan.tree.integerDivisions = plan.integerDivisions := by
  have each : (List.range plan.nodes.length).map plan.integerDivisionsAt =
      plan.nodes.map plan.integerDivisionsOf := by
    refine List.ext_getElem (by simp) fun k _ bound => ?_
    rw [List.length_map] at bound
    rw [List.getElem_map, List.getElem_map, List.getElem_range,
      plan.integerDivisionsAt_of_getElem? (List.getElem?_eq_getElem bound)]
  -- the positions of the tree are those of all nodes, each once, in another order
  rw [plan.unfolds_tree.integerDivisions_eq, (plan.positions_tree_perm.map _).sum_nat, each,
    integerDivisions]

end Plan

end PlanCompiler
