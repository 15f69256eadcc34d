import PlanCompiler.Proofs.Expr.Parts
import PlanCompiler.Proofs.Outcome

/-!
# Typed expressions

What the type of an expression says about its operands, one statement for each kind of expression
with operands. Every connective of a typed expression has operands.

## Main results

* `Expr.infer_binary_eq_ok_iff` and its siblings: the types of the operands;
* `Expr.isEmptyJunction_eq_false_of_infer`: no connective of a typed expression is empty.
-/

namespace PlanCompiler.Expr

variable {input : Schema} {type : DataType}

attribute [local simp] infer bind_eq_ok_iff

/-- A column has the type at its index. -/
theorem infer_column_eq_ok_iff {index : UInt32} :
    (column index).infer input = .ok type ↔ input[index.toNat]? = some type := by
  rw [infer]
  split <;> simp [*]

/-- A binary operation has the type that its operator gives for those of its operands. -/
theorem infer_binary_eq_ok_iff {op : BinaryOp} {lhs rhs : Expr} :
    (binary op lhs rhs).infer input = .ok type ↔
      ∃ l r, lhs.infer input = .ok l ∧ rhs.infer input = .ok r ∧
        op.resultType? l r = some type := by
  simp only [infer, bind_eq_ok_iff]
  constructor
  · rintro ⟨l, left, r, right, result⟩
    refine ⟨l, r, left, right, ?_⟩
    split at result <;> simp_all
  · rintro ⟨l, r, left, right, result⟩
    exact ⟨l, left, r, right, by simp [result]⟩

/-- Only truth values are accepted as such. -/
theorem requireBool_eq_ok_iff {done : Unit} : requireBool type = .ok done ↔ type = .bool := by
  rw [requireBool]
  split <;> simp [*]

/-- Operands are accepted if all of them are truth values. -/
theorem requireBools_eq_ok_iff {operands : List Expr} {done : Unit} :
    requireBools input operands = .ok done ↔
      ∀ operand ∈ operands, operand.infer input = .ok .bool := by
  induction operands with
  | nil => simp [requireBools]
  | cons first rest ih =>
    simp [requireBools, requireBool_eq_ok_iff, ih]

/-- A junction is a truth value if it has operands and all of them are truth values. -/
theorem infer_junction_eq_ok_iff {connective : Connective} {operands : List Expr} :
    (junction connective operands).infer input = .ok type ↔
      type = .bool ∧ operands ≠ [] ∧ ∀ operand ∈ operands, operand.infer input = .ok .bool := by
  cases operands with
  | nil => simp
  | cons first rest =>
    simp [requireBools_eq_ok_iff, and_comm, eq_comm (a := type)]

/-- A negation is a truth value if its operand is one. -/
theorem infer_not_eq_ok_iff {operand : Expr} :
    (not operand).infer input = .ok type ↔ type = .bool ∧ operand.infer input = .ok .bool := by
  simp [requireBool_eq_ok_iff, and_comm, eq_comm (a := type)]

/-- A case has the type that its two alternatives have in common. -/
theorem infer_case_eq_ok_iff {condition consequent alternative : Expr} :
    (case condition consequent alternative).infer input = .ok type ↔
      condition.infer input = .ok .bool ∧
        ∃ a b, consequent.infer input = .ok a ∧ alternative.infer input = .ok b ∧
          DataType.unify? a b = some type := by
  simp only [infer, bind_eq_ok_iff]
  constructor
  · rintro ⟨c, test, _, isBool, a, left, b, right, result⟩
    -- the check of the condition returns nothing
    obtain rfl := requireBool_eq_ok_iff.1 isBool
    refine ⟨test, a, b, left, right, ?_⟩
    split at result <;> simp_all
  · rintro ⟨test, a, b, left, right, result⟩
    exact ⟨.bool, test, (), requireBool_eq_ok_iff.2 rfl, a, left, b, right, by simp [result]⟩

/-- A pattern match is a truth value if its operand is a text. -/
theorem infer_like_eq_ok_iff {value : Expr} {pattern : String} :
    (like value pattern).infer input = .ok type ↔
      type = .bool ∧ value.infer input = .ok .text := by
  simp only [infer, bind_eq_ok_iff]
  constructor
  · rintro ⟨found, inside, result⟩
    split at result <;> simp_all
  · rintro ⟨rfl, inside⟩
    exact ⟨.text, inside, rfl⟩

/-- No connective of a typed expression is empty. -/
theorem isEmptyJunction_eq_false_of_infer {e : Expr} (h : e.infer input = .ok type) :
    ∀ part ∈ e.parts, part.isEmptyJunction = false := by
  induction e generalizing type with
  | column | int | float | date | text => simp [parts, isEmptyJunction]
  | binary op lhs rhs left right =>
    obtain ⟨l, r, leftTyped, rightTyped, -⟩ := infer_binary_eq_ok_iff.1 h
    exact forall_parts_binary.2 ⟨rfl, left leftTyped, right rightTyped⟩
  | junction connective operands inside =>
    -- this is where an empty connective is excluded
    obtain ⟨-, nonempty, typed⟩ := infer_junction_eq_ok_iff.1 h
    exact forall_parts_junction.2 ⟨isEmptyJunction_junction.2 nonempty,
      fun operand member => inside operand member (typed operand member)⟩
  | not operand inside =>
    exact forall_parts_not.2 ⟨rfl, inside (infer_not_eq_ok_iff.1 h).2⟩
  | case condition consequent alternative test left right =>
    obtain ⟨testTyped, a, b, leftTyped, rightTyped, -⟩ := infer_case_eq_ok_iff.1 h
    exact forall_parts_case.2 ⟨rfl, test testTyped, left leftTyped, right rightTyped⟩
  | like value pattern inside =>
    exact forall_parts_like.2 ⟨rfl, inside (infer_like_eq_ok_iff.1 h).2⟩

end PlanCompiler.Expr
