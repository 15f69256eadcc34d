import PlanCompiler.Expr.Basic

/-!
# Parts of expressions

An expression contains itself and all that its operands contain. Conditions on the literals of an
expression are stated of its parts, and proofs about expressions go by `Expr.induction`, which
gives the operands of a connective as the members of a list.

## Main definitions

* `Expr.parts`: the subexpressions of an expression, itself first;
* `Expr.isEmptyJunction`: a connective without operands.

## Main results

* `Expr.induction`: what holds of an expression whenever it holds of all its operands, holds of
  all expressions;
* `Expr.forall_parts_junction`: a condition on the parts of a connective.
-/

namespace PlanCompiler.Expr

/-- Induction over expressions, with the operands of a connective taken together. -/
@[elab_as_elim, induction_eliminator]
theorem induction {motive : Expr → Prop}
    (column : ∀ index, motive (.column index))
    (int : ∀ value, motive (.int value))
    (float : ∀ value, motive (.float value))
    (date : ∀ days, motive (.date days))
    (text : ∀ value, motive (.text value))
    (binary : ∀ op lhs rhs, motive lhs → motive rhs → motive (.binary op lhs rhs))
    (junction : ∀ connective operands, (∀ operand ∈ operands, motive operand) →
      motive (.junction connective operands))
    (not : ∀ operand, motive operand → motive (.not operand))
    (case : ∀ condition consequent alternative, motive condition → motive consequent →
      motive alternative → motive (.case condition consequent alternative))
    (like : ∀ value pattern, motive value → motive (.like value pattern))
    (e : Expr) : motive e :=
  -- what holds of a list of operands is that it holds of each of them
  @Expr.rec motive (fun operands => ∀ operand ∈ operands, motive operand)
    column int float date text binary junction not case like
    (fun _ member => absurd member List.not_mem_nil)
    (fun _ _ first rest => List.forall_mem_cons.2 ⟨first, rest⟩) e

mutual

/-- The subexpressions of an expression, itself first. -/
def parts : Expr → List Expr
  | .column index => [.column index]
  | .int value => [.int value]
  | .float value => [.float value]
  | .date days => [.date days]
  | .text value => [.text value]
  | .binary op lhs rhs => .binary op lhs rhs :: (lhs.parts ++ rhs.parts)
  | .junction connective operands => .junction connective operands :: partsOfAll operands
  | .not operand => .not operand :: operand.parts
  | .case condition consequent alternative =>
    .case condition consequent alternative ::
      (condition.parts ++ consequent.parts ++ alternative.parts)
  | .like value pattern => .like value pattern :: value.parts

/-- The parts of some expressions. -/
def partsOfAll : List Expr → List Expr
  | [] => []
  | first :: rest => first.parts ++ partsOfAll rest

end

/-- The parts of some operands are those of each in order. -/
@[simp]
theorem partsOfAll_eq_flatMap (operands : List Expr) :
    partsOfAll operands = operands.flatMap parts := by
  induction operands with
  | nil => rfl
  | cons first rest ih => simp [partsOfAll, ih]

/-! ## Conditions on parts -/

section

variable {P : Expr → Prop}

attribute [local simp] parts

/-- What holds of all parts of a binary operation. -/
theorem forall_parts_binary {op : BinaryOp} {lhs rhs : Expr} :
    (∀ part ∈ (binary op lhs rhs).parts, P part) ↔
      P (.binary op lhs rhs) ∧ (∀ part ∈ lhs.parts, P part) ∧ ∀ part ∈ rhs.parts, P part := by
  simp [or_imp, forall_and]

/-- What holds of all parts of a junction. -/
theorem forall_parts_junction {connective : Connective} {operands : List Expr} :
    (∀ part ∈ (junction connective operands).parts, P part) ↔
      P (.junction connective operands) ∧
        ∀ operand ∈ operands, ∀ part ∈ operand.parts, P part := by
  simp only [parts, partsOfAll_eq_flatMap, List.forall_mem_cons, List.mem_flatMap]
  constructor
  · rintro ⟨self, inside⟩
    exact ⟨self, fun operand member part found => inside part ⟨operand, member, found⟩⟩
  · rintro ⟨self, inside⟩
    exact ⟨self, fun part ⟨operand, member, found⟩ => inside operand member part found⟩

/-- What holds of all parts of a negation. -/
theorem forall_parts_not {operand : Expr} :
    (∀ part ∈ (not operand).parts, P part) ↔
      P (.not operand) ∧ ∀ part ∈ operand.parts, P part := by
  simp

/-- What holds of all parts of a case. -/
theorem forall_parts_case {condition consequent alternative : Expr} :
    (∀ part ∈ (case condition consequent alternative).parts, P part) ↔
      P (.case condition consequent alternative) ∧ (∀ part ∈ condition.parts, P part) ∧
        (∀ part ∈ consequent.parts, P part) ∧ ∀ part ∈ alternative.parts, P part := by
  simp [or_imp, forall_and]

/-- What holds of all parts of a pattern match. -/
theorem forall_parts_like {value : Expr} {pattern : String} :
    (∀ part ∈ (like value pattern).parts, P part) ↔
      P (.like value pattern) ∧ ∀ part ∈ value.parts, P part := by
  simp

end

/-- A connective that joins nothing. -/
def isEmptyJunction : Expr → Bool
  | .junction _ [] => true
  | _ => false

/-- A junction with operands is not empty. -/
theorem isEmptyJunction_junction {connective : Connective} {operands : List Expr} :
    (junction connective operands).isEmptyJunction = false ↔ operands ≠ [] := by
  cases operands <;> simp [isEmptyJunction]

/-! ## Depth -/

/-- Operands nest at most so deep exactly if each of them does. -/
theorem maxDepthOf_le_iff {operands : List Expr} {n : Nat} :
    maxDepthOf operands ≤ n ↔ ∀ operand ∈ operands, operand.depth ≤ n := by
  induction operands with
  | nil => simp [maxDepthOf]
  | cons first rest ih => rw [maxDepthOf, Nat.max_le, ih, List.forall_mem_cons]

/-- Every expression has a depth of one at least. -/
theorem one_le_depth (e : Expr) : 1 ≤ e.depth := by
  cases e <;> simp only [depth] <;> omega

end PlanCompiler.Expr
