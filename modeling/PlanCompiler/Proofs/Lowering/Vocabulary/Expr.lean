import PlanCompiler.Proofs.Code.Literal
import PlanCompiler.Proofs.Code.Vocabulary.Basic
import PlanCompiler.Proofs.Lowering.Expr

/-!
# Expressions within a vocabulary

The code of an expression only calls helper functions. The one for checked division is only called
if there are checks.

## Main definitions

* `Value.IsWithin`: the code of a value keeps within a vocabulary.

## Main results

* `Expr.gives_isWithin_lower`: the code of an expression.
-/

namespace PlanCompiler

variable {v : Vocabulary}

/-! ## Values -/

/-- The representation of a type keeps within any vocabulary. -/
@[simp]
theorem DataType.isWithin_representation (type : DataType) :
    (Piece.text type.representation).IsWithin v := by
  cases type <;> simp (disch := first | decide | exact rfl) [representation]

/-- The code of a value keeps within a vocabulary. -/
def Value.IsWithin (v : Vocabulary) (value : Value) : Prop := value.code.IsWithin v

namespace Value

variable {value : Value}

/-- A value is within a vocabulary exactly if its code is. -/
@[simp]
theorem isWithin_iff : value.IsWithin v ↔ value.code.IsWithin v := .rfl

/-- A conversion adds no words but those of the type. -/
@[simp]
theorem isWithin_convert {type : DataType} :
    (value.convert type).IsWithin v ↔ value.code.IsWithin v := by
  rw [convert]
  split
  · rfl
  · simp (disch := first | decide | exact rfl)

/-- The hash of a value needs the helpers that all programs have. -/
theorem isWithin_hash (helpers : v.HasHelpers) : value.hash.IsWithin v ↔ value.code.IsWithin v := by
  rw [hash]
  split <;> simp (disch := first | decide | exact rfl) [helpers _]

/-- A comparison of keys is within a vocabulary exactly if both keys are. -/
@[simp]
theorem isWithin_sameKey {type : DataType} {a b : Code} :
    (sameKey type a b).IsWithin v ↔ a.IsWithin v ∧ b.IsWithin v := by
  cases type <;> simp (disch := first | decide | exact rfl) [sameKey]

end Value

/-! ## Operators -/

namespace BinaryOp

/-- The characters of an operator are signs. -/
theorem exists_spelled_of_signs (op : BinaryOp) : ∃ chars, String.ofList chars = op.spelling ∧
    isPlainText [] chars = true ∧ Code.followsText chars = true ∧ Code.leadsText chars = true := by
  cases op <;> exact ⟨_, rfl, by decide, by decide, by decide⟩

/-- The spelling of an operation keeps within any vocabulary. -/
@[simp]
theorem isWithin_spelling (op : BinaryOp) : (Piece.text op.spelling).IsWithin v := by
  obtain ⟨chars, spelled, plain, -, -⟩ := op.exists_spelled_of_signs
  exact Piece.isWithin_text spelled plain

variable {op : BinaryOp} {a b : Code}

/-- An operation's spelling behind code adds no words. -/
@[simp]
theorem isWithin_append_spelling :
    (a ++ (op.spelling : Code)).IsWithin v ↔ a.IsWithin v := by
  obtain ⟨chars, spelled, -, follows, -⟩ := op.exists_spelled_of_signs
  rw [Code.isWithin_append_text spelled follows]
  simp

/-- Code around an operation's spelling is judged side by side. -/
@[simp]
theorem isWithin_append_spelling_append :
    (a ++ (op.spelling : Code) ++ b).IsWithin v ↔ a.IsWithin v ∧ b.IsWithin v := by
  obtain ⟨chars, spelled, -, -, leads⟩ := op.exists_spelled_of_signs
  rw [Code.isWithin_append_text_append spelled leads, isWithin_append_spelling]

/-- With a blank behind an operator, its last lexeme is that of the operator. -/
@[simp]
theorem isWithin_append_spelling_blank_append :
    (a ++ (op.spelling : Code) ++ ((" " : String) : Code) ++ b).IsWithin v ↔
      a.IsWithin v ∧ b.IsWithin v := by
  obtain ⟨chars, spelled, -, -, leads⟩ := op.exists_spelled_of_signs
  rw [Code.isWithin_append_blank_append fun _ => Code.getLast?_of_leadsText spelled leads,
    isWithin_append_spelling]

section

variable {lhs rhs : Value} (left : lhs.code.IsWithin v) (right : rhs.code.IsWithin v)
include left right

/-- A comparison keeps within the vocabulary of its two sides. -/
theorem isWithin_lowerComparison (op : BinaryOp) : (op.lowerComparison lhs rhs).IsWithin v := by
  rw [lowerComparison]
  split_ifs <;> simp (disch := first | decide | exact rfl) [left, right]

/-- An operation keeps within the vocabulary of its operands if that has the checked division where
one is asked for. -/
theorem gives_isWithin_lower {checked : Bool}
    (divides : checked = true → .helper .divide ∈ v.functions) (op : BinaryOp) :
    Gives (op.lower checked lhs rhs) (Value.IsWithin v) := by
  rw [lower]
  split
  · exact .ok (isWithin_lowerComparison left right op)
  rw [lowerArithmetic]
  split <;> try split_ifs
  all_goals first
    | exact .error _
    | exact .ok (by simp (disch := first | decide | exact rfl | assumption) [left, right, divides])

end

end BinaryOp

/-! ## Literals -/

namespace Code

/-- A numeral with some characters around it. -/
theorem isPlainText_of_isNumeral {front back numeral : List Char} (isNumeral : IsNumeral numeral)
    (plain : ∀ c ∈ ['"', '\\', '\n', 'm', 'k', 'V'], c ∉ front ++ back) :
    isPlainText [] (front ++ numeral ++ back) = true := by
  -- no character of a numeral starts a literal or one of the words in question
  have missing : ∀ c ∈ ['"', '\\', '\n', 'm', 'k', 'V'], c ∉ front ++ numeral ++ back := by
    intro c other
    have notNumeral : isNumeralChar c = false := by
      revert c
      exact List.all_iff_forall_prop.1 (by decide)
    have absent := plain c other
    simp only [List.mem_append, not_or] at absent ⊢
    exact ⟨⟨absent.1, isNumeral.notMem notNumeral⟩, absent.2⟩
  have nonempty : front ++ numeral ++ back ≠ [] := by
    simp [isNumeral.1]
  exact isPlainText_of_notMem nonempty (missing _ (by decide)) (missing _ (by decide))
    (missing _ (by decide)) (missing _ (by decide))
    (.inr ⟨missing _ (by decide), missing _ (by decide)⟩)

/-- A numeral between plain texts keeps within any vocabulary. -/
theorem isWithin_numeral {front back : String} {numeral : String}
    (isNumeral : IsNumeral numeral.toList)
    (plain : ∀ c ∈ ['"', '\\', '\n', 'm', 'k', 'V'], c ∉ front.toList ++ back.toList) :
    (Piece.text (front ++ numeral ++ back)).IsWithin v := by
  refine ⟨[], ?_, List.forall_mem_nil _⟩
  rw [String.toList_append, String.toList_append]
  exact isPlainText_of_isNumeral isNumeral plain

/-- An integer literal keeps within any vocabulary. -/
theorem isWithin_intLiteral (n : Int64) : (Piece.text (intLiteral n)).IsWithin v := by
  rw [intLiteral]
  split
  · simp (disch := first | decide | exact rfl)
  · exact isWithin_numeral (isNumeral_toString_int _) (List.all_iff_forall_prop.1 (by decide))

/-- A float literal keeps within any vocabulary. -/
theorem isWithin_floatLiteral (x : Binary64) : (Piece.text (floatLiteral x)).IsWithin v := by
  rw [floatLiteral]
  split_ifs
  · simp (disch := first | decide | exact rfl)
  · simp (disch := first | decide | exact rfl)
  · simp (disch := first | decide | exact rfl)
  · exact isWithin_numeral (isNumeral_finiteText _ _) (List.all_iff_forall_prop.1 (by decide))

/-- A date literal keeps within any vocabulary. -/
theorem isWithin_dateLiteral (days : Int32) : (Piece.text (dateLiteral days)).IsWithin v :=
  isWithin_numeral (isNumeral_toString_int _) (List.all_iff_forall_prop.1 (by decide))

end Code

/-! ## Expressions -/

/-- Code joined by a connective is within a vocabulary exactly if every part is. -/
theorem Connective.isWithin_separated_spelling (connective : Connective) {parts : List Code} :
    (Code.separated connective.spelling parts).IsWithin v ↔ AllOf (Code.IsWithin v) parts := by
  cases connective with
  | and =>
    exact Code.isWithin_separated (rfl : String.ofList _ = " && ") (by decide)
      (by decide) (Piece.isWithin_text rfl (by decide))
  | or =>
    exact Code.isWithin_separated (rfl : String.ofList _ = " || ") (by decide)
      (by decide) (Piece.isWithin_text rfl (by decide))

namespace Expr

variable {checked : Bool} {row : List Value}
  (divides : checked = true → .helper .divide ∈ v.functions) (helpers : v.HasHelpers)
  (within : AllOf (Value.IsWithin v) row)
include divides helpers within

/-- The code of an expression keeps within the vocabulary if the row does. -/
theorem gives_isWithin_lower (e : Expr) : Gives (e.lower checked row) (Value.IsWithin v) := by
  induction e with
  | column index =>
    rw [lower]
    split
    · rename_i value found
      exact .ok (within value (List.mem_of_getElem? found))
    · exact .error _
  | int value => exact .ok (Code.isWithin_text.2 (Code.isWithin_intLiteral value))
  | float value => exact .ok (Code.isWithin_text.2 (Code.isWithin_floatLiteral value))
  | date days => exact .ok (Code.isWithin_text.2 (Code.isWithin_dateLiteral days))
  | text value => exact .ok Code.isWithin_literal
  | binary op lhs rhs left right =>
    rw [lower]
    exact left.bind fun l leftWithin => right.bind fun r rightWithin =>
      BinaryOp.gives_isWithin_lower leftWithin rightWithin divides op
  | junction connective operands inside =>
    rw [lower, lowerEach_eq_mapM]
    refine (Gives.mapM inside).bind fun values valuesWithin => .ok ?_
    have parts : AllOf (Code.IsWithin v) (values.map Value.code) := AllOf.map_iff.2 valuesWithin
    simp (disch := first | decide | exact rfl) [connective.isWithin_separated_spelling, parts]
  | not operand inside =>
    rw [lower]
    refine inside.bind fun value valueWithin => .ok ?_
    rw [Value.isWithin_iff] at valueWithin
    -- `simp` goes down to the parts, and the check of each fixed text is its discharger
    simp (disch := first | decide | exact rfl) [valueWithin]
  | case condition consequent alternative test left right =>
    rw [lower]
    refine test.bind fun t testWithin => left.bind fun l leftWithin =>
      right.bind fun r rightWithin => ?_
    rw [Value.isWithin_iff] at testWithin leftWithin rightWithin
    split
    · refine .ok ?_
      simp (disch := first | decide | exact rfl) [testWithin, leftWithin, rightWithin]
    · exact .error _
  | like value pattern inside =>
    rw [lower]
    refine inside.bind fun value valueWithin => .ok ?_
    rw [Value.isWithin_iff] at valueWithin
    simp [helpers _, valueWithin]

/-- The values of some expressions keep within the vocabulary of the row. -/
theorem gives_isWithin_lowerEach (expressions : List Expr) :
    Gives (lowerEach checked row expressions) (AllOf (Value.IsWithin v)) := by
  rw [lowerEach_eq_mapM]
  exact Gives.mapM fun e _ => gives_isWithin_lower divides helpers within e

end Expr

end PlanCompiler
