import PlanCompiler.Proofs.Code.CallSites
import PlanCompiler.Proofs.Code.Literal
import PlanCompiler.Proofs.Lowering.Expr
import PlanCompiler.Proofs.Plan.Divisions

/-!
# Call sites in expressions

An expression is lowered to code that has one checked division for each of its integer divisions,
or none at all without checks, as long as the values of the row that it reads have none.

## Main definitions

* `Value.HasSites`: the number of checked divisions in the code of a value;
* `Expr.IsCounted`: the code of an expression has the checked divisions of the expression.

## Main results

* `Expr.gives_hasSites_lower`: the checked divisions in the code of an expression.
-/

namespace PlanCompiler

open Code

/-! ## Values -/

namespace DataType

/-- The representation of a type is quiet. -/
@[simp]
theorem isQuiet_representation (type : DataType) : (Piece.text type.representation).IsQuiet := by
  cases type <;> simp (disch := first | decide | exact rfl) [representation]

/-- The representation of a type lexes as a whole. -/
@[simp]
theorem isWhole_representation (type : DataType) : (Piece.text type.representation).IsWhole :=
  type.isQuiet_representation.isWhole

end DataType

/-- The code of a value does not mention checked division. -/
def Value.IsQuiet (value : Value) : Prop := value.code.IsQuiet

/-- The code of a value can be read piece by piece, and it has a number of checked divisions. -/
structure Value.HasSites (value : Value) (n : Nat) : Prop where
  whole : value.code.IsWhole
  sites : value.code.sites = n

namespace Value

variable {value : Value} {n : Nat}

/-- A value is quiet exactly if its code is. -/
@[simp]
theorem isQuiet_iff : value.IsQuiet ↔ value.code.IsQuiet := .rfl

/-- A quiet value has no checked division. -/
theorem IsQuiet.hasSites (quiet : value.IsQuiet) : value.HasSites 0 :=
  ⟨Code.IsQuiet.isWhole quiet, Code.IsQuiet.sites_eq quiet⟩

/-- A converted value lexes as a whole. -/
theorem isWhole_convert (whole : value.code.IsWhole) (type : DataType) :
    (value.convert type).IsWhole := by
  rw [convert]
  split
  · exact whole
  · simp (disch := first | decide | exact rfl) [whole]

/-- A conversion adds no checked division. -/
theorem sites_convert (value : Value) (type : DataType) :
    (value.convert type).sites = value.code.sites := by
  rw [convert]
  split
  · rfl
  · have cast : ("((" ++ type.representation : Code).sites = 0 := by
      cases type <;>
        simp (disch := first | decide | exact rfl) [DataType.representation, sites_append_text,
          sites_text]
    simp (disch := first | decide | exact rfl) [sites_append_text, sites_append_text_append, cast]

end Value

/-! ## Operators -/

namespace BinaryOp

/-- The characters of an operator are signs. -/
theorem exists_spelled (op : BinaryOp) : ∃ chars, String.ofList chars = op.spelling ∧
    Piece.isWholeText chars = true ∧ opensText chars = true ∧ closesText chars = true := by
  cases op <;> exact ⟨_, rfl, by decide, by decide, by decide⟩

/-- The spelling of an operation lexes as a whole. -/
@[simp]
theorem isWhole_spelling (op : BinaryOp) : (Piece.text op.spelling).IsWhole := by
  obtain ⟨chars, spelled, whole, -, -⟩ := op.exists_spelled
  exact Piece.isWhole_text spelled whole

/-- The spelling of an operation has no checked division. -/
theorem sites_spelling (op : BinaryOp) : (op.spelling : Code).sites = 0 := by
  obtain ⟨chars, spelled, -, opens, -⟩ := op.exists_spelled
  exact sites_text spelled opens

/-- The checked divisions on both sides of an operator. -/
theorem sites_append_spelling_append (op : BinaryOp) (a b : Code) :
    (a ++ op.spelling ++ b : Code).sites = a.sites + b.sites := by
  obtain ⟨chars, spelled, -, opens, closes⟩ := op.exists_spelled
  rw [sites_append_text_append spelled opens, sites_append_text spelled closes]

variable {lhs rhs : Value}

section

variable (lhsWhole : lhs.code.IsWhole) (rhsWhole : rhs.code.IsWhole)
include lhsWhole rhsWhole

/-- A comparison of whole values lexes as a whole. -/
theorem isWhole_lowerComparison (op : BinaryOp) : (op.lowerComparison lhs rhs).IsWhole := by
  have converted := And.intro (Value.isWhole_convert lhsWhole .float)
    (Value.isWhole_convert rhsWhole .float)
  rw [lowerComparison]
  split_ifs <;> simp (disch := first | decide | exact rfl) [lhsWhole, rhsWhole, converted]

/-- Arithmetic on whole values lexes as a whole. -/
theorem gives_isWhole_lowerArithmetic (checked : Bool) (op : BinaryOp) :
    Gives (op.lowerArithmetic checked lhs rhs) fun value => value.code.IsWhole := by
  have converted := And.intro (Value.isWhole_convert lhsWhole .float)
    (Value.isWhole_convert rhsWhole .float)
  rw [lowerArithmetic]
  split <;> try split_ifs
  all_goals first
    | exact .error _
    | exact .ok (by simp (disch := first | decide | exact rfl) [lhsWhole, rhsWhole, converted])

end

/-- A comparison has the checked divisions of its two sides. -/
theorem sites_lowerComparison (op : BinaryOp) :
    (op.lowerComparison lhs rhs).sites = lhs.code.sites + rhs.code.sites := by
  rw [lowerComparison]
  split_ifs <;>
    simp (disch := first | decide | exact rfl) [sites_append_text, sites_append_blank_append,
      sites_spelling, sites_append_spelling_append, sites_append_text_append, sites_text_append,
      Value.sites_convert]

/-- An operator adds a checked division if it divides two integers. -/
theorem gives_sites_lowerArithmetic (checked : Bool) (op : BinaryOp) :
    Gives (op.lowerArithmetic checked lhs rhs) fun value => value.code.sites =
      (if checked ∧ op = .div ∧ lhs.type = .int ∧ rhs.type = .int then 1 else 0) +
        (lhs.code.sites + rhs.code.sites) := by
  rw [lowerArithmetic]
  split
  · rename_i left right
    by_cases division : op = .div
    · rw [if_pos division]
      cases checked with
      | true => exact .ok (by simp [division, left, right, sites_help])
      | false =>
        refine .ok ?_
        simp (disch := first | decide | exact rfl) [sites_append_text, sites_append_text_append,
          sites_text_append]
    · rw [if_neg division]
      refine .ok ?_
      simp (disch := first | decide | exact rfl) [division, sites_append_text,
        sites_append_spelling_append, sites_append_text_append, sites_text_append, sites_text]
  case h_8 => exact .error _
  -- other types have no integer divisions
  all_goals
    rename_i left right
    simp only [left, right, reduceCtorEq, and_false, false_and, ↓reduceIte, Nat.zero_add]
  case h_2 | h_3 | h_4 =>
    refine .ok ?_
    simp (disch := first | decide | exact rfl) [sites_append_text, sites_append_blank_append,
      sites_append_spelling_append, sites_text_append, Value.sites_convert]
  all_goals
    split
    · refine .ok ?_
      simp (disch := first | decide | exact rfl) [sites_append_text, sites_append_blank_append,
        sites_append_spelling_append, sites_append_text_append, sites_text_append]
    · exact .error _

/-- An operation adds one checked division if it divides integers and checks are asked for. -/
theorem gives_hasSites_lower (checked : Bool) (op : BinaryOp) (lhsWhole : lhs.code.IsWhole)
    (rhsWhole : rhs.code.IsWhole) :
    Gives (op.lower checked lhs rhs) fun value => value.HasSites
      ((if checked ∧ op = .div ∧ lhs.type = .int ∧ rhs.type = .int then 1 else 0) +
        (lhs.code.sites + rhs.code.sites)) := by
  rw [lower]
  -- a comparison is no division, so only the arithmetic operators can call the helper
  split
  · rename_i comparison
    have noDivision : op ≠ .div := by
      rintro rfl
      cases comparison
    rw [if_neg fun division => noDivision division.2.1, Nat.zero_add]
    exact .ok ⟨isWhole_lowerComparison lhsWhole rhsWhole op, sites_lowerComparison op⟩
  · intro value lowered
    exact ⟨gives_isWhole_lowerArithmetic lhsWhole rhsWhole checked op value lowered,
      gives_sites_lowerArithmetic checked op value lowered⟩

end BinaryOp

/-- The characters of a connective are signs between blanks. -/
theorem Connective.exists_spelled (connective : Connective) :
    ∃ chars, String.ofList chars = connective.spelling ∧ Piece.isWholeText chars = true ∧
      Lexeme.startsWord chars = false ∧ Lexeme.endsWord chars = false ∧
      opensText chars = true ∧ closesText chars = true := by
  cases connective <;> exact ⟨_, rfl, by decide, by decide, by decide, by decide, by decide⟩

/-! ## Literals -/

namespace Code

/-- A numeral with some characters around it. -/
theorem isQuietText_of_isNumeral {front back numeral : List Char} (isNumeral : IsNumeral numeral)
    (noQuote : '"' ∉ front ++ back) (noBackslash : '\\' ∉ front ++ back)
    (missing : 'k' ∉ front ++ back) : isQuietText (front ++ numeral ++ back) = true := by
  have other {c : Char} (notNumeral : isNumeralChar c = false) (absent : c ∉ front ++ back) :
      c ∉ front ++ numeral ++ back := by
    simp only [List.mem_append, not_or] at absent ⊢
    exact ⟨⟨absent.1, isNumeral.notMem notNumeral⟩, absent.2⟩
  have nonempty : front ++ numeral ++ back ≠ [] := by
    simp [isNumeral.1]
  exact isQuietText_of_notMem nonempty (other (by decide) noQuote) (other (by decide) noBackslash)
    (c := 'k') (by decide) (other (by decide) missing)

/-- An integer literal is quiet. -/
theorem isQuiet_intLiteral (n : Int64) : (Piece.text (intLiteral n)).IsQuiet := by
  rw [intLiteral]
  split
  · simp (disch := first | decide | exact rfl)
  · rw [Piece.IsQuiet, String.toList_append, String.toList_append]
    exact isQuietText_of_isNumeral (isNumeral_toString_int _) (by decide) (by decide) (by decide)

/-- A float literal is quiet. -/
theorem isQuiet_floatLiteral (x : Binary64) : (Piece.text (floatLiteral x)).IsQuiet := by
  rw [floatLiteral]
  split_ifs
  · simp (disch := first | decide | exact rfl)
  · simp (disch := first | decide | exact rfl)
  · simp (disch := first | decide | exact rfl)
  · rw [Piece.IsQuiet, String.toList_append, String.toList_append]
    exact isQuietText_of_isNumeral (isNumeral_finiteText _ _) (by decide) (by decide) (by decide)

/-- A date literal is quiet. -/
theorem isQuiet_dateLiteral (days : Int32) : (Piece.text (dateLiteral days)).IsQuiet := by
  rw [dateLiteral, Piece.IsQuiet, String.toList_append, String.toList_append]
  exact isQuietText_of_isNumeral (isNumeral_toString_int _) (by decide) (by decide) (by decide)

end Code

/-! ## Expressions -/

namespace Expr

/-- The number of checked divisions that an expression is lowered to. -/
def checkedDivisions (checked : Bool) (input : Schema) (e : Expr) : Nat :=
  if checked then e.integerDivisions input else 0

section

variable (checked : Bool) {input : Schema}

/-- A binary operation counts itself, if it divides integers, and its two operands. -/
theorem checkedDivisions_binary {op : BinaryOp} {lhs rhs : Expr} {l r : DataType}
    (left : lhs.infer input = .ok l) (right : rhs.infer input = .ok r) :
    (binary op lhs rhs).checkedDivisions checked input =
      (if checked ∧ op = .div ∧ l = .int ∧ r = .int then 1 else 0) +
        (lhs.checkedDivisions checked input + rhs.checkedDivisions checked input) := by
  cases checked with
  | false => rfl
  | true => simp [checkedDivisions, integerDivisions_binary left right, Nat.add_assoc]

/-- The checked divisions of some expressions are their integer divisions, or none without checks.
-/
theorem sum_checkedDivisions (expressions : List Expr) :
    (expressions.map (checkedDivisions checked input)).sum =
      if checked then integerDivisionsOfAll input expressions else 0 := by
  cases checked with
  | false =>
    refine List.sum_eq_zero fun n member => ?_
    obtain ⟨e, -, rfl⟩ := List.mem_map.1 member
    rfl
  | true => rfl

end

/-- The checked divisions of several values, given those of each. -/
theorem hasSites_of_forall₂ {expressions : List Expr} {values : List Value} {count : Expr → Nat}
    (each : List.Forall₂ (fun e value => value.HasSites (count e)) expressions values) :
    AllOf Code.IsWhole (values.map Value.code) ∧
      ((values.map Value.code).map Code.sites).sum = (expressions.map count).sum := by
  induction each with
  | nil => exact ⟨.nil, rfl⟩
  | cons first _ ih =>
    refine ⟨AllOf.cons_iff.2 ⟨first.whole, ih.1⟩, ?_⟩
    rw [List.map_cons, List.map_cons, List.sum_cons, List.map_cons, List.sum_cons, first.sites,
      ih.2]

/-- An expression is lowered to code that has a checked division for each integer division of it. -/
def IsCounted (checked : Bool) (row : List Value) (e : Expr) : Prop :=
  Gives (e.lower checked row) fun value =>
    value.HasSites (e.checkedDivisions checked (row.map Value.type))

section

variable {checked : Bool} {row : List Value}

/-- So it is when several expressions are lowered. -/
theorem gives_sum_sites_of_forall {expressions : List Expr}
    (typed : ∀ e ∈ expressions, ∃ type, e.infer (row.map Value.type) = .ok type)
    (each : ∀ e ∈ expressions, e.IsCounted checked row) :
    Gives (lowerEach checked row expressions) fun values =>
      AllOf Code.IsWhole (values.map Value.code) ∧
        ((values.map Value.code).map Code.sites).sum =
          if checked then integerDivisionsOfAll (row.map Value.type) expressions else 0 := by
  -- the values are paired with the expressions that they are made from
  have lowered := Yields.mapM (f := lower checked row) (S := fun e value => Value.HasSites value
      (e.checkedDivisions checked (row.map Value.type))) fun e member => by
    obtain ⟨type, typed⟩ := typed e member
    exact ((yields_lower checked typed).and (each e member)).imp fun _ known => known.2
  rw [lowerEach_eq_mapM, ← sum_checkedDivisions]
  exact lowered.gives.imp fun values => hasSites_of_forall₂

/-! One lemma for each form of an expression. -/

/-- An expression without operands has no divisions. -/
theorem hasSites_of_isQuiet {e : Expr} {value : Value} (quiet : value.IsQuiet)
    (none : e.parts.countP (isIntegerDivision (row.map Value.type)) = 0) :
    value.HasSites (e.checkedDivisions checked (row.map Value.type)) := by
  rw [checkedDivisions, integerDivisions, none, ite_self]
  exact quiet.hasSites

/-- A column of a quiet row is counted: it has no checked division. -/
theorem isCounted_column (quiet : AllOf Value.IsQuiet row) (index : UInt32) :
    (column index).IsCounted checked row := by
  rw [IsCounted, lower]
  split
  · rename_i value found
    exact .ok (hasSites_of_isQuiet (quiet value (List.mem_of_getElem? found)) rfl)
  · exact .error _

/-- Whether an operator divides integers is decided by the types that its operands have. -/
theorem isCounted_binary {op : BinaryOp} {lhs rhs : Expr} {l r : DataType}
    (leftTyped : lhs.infer (row.map Value.type) = .ok l)
    (rightTyped : rhs.infer (row.map Value.type) = .ok r) (left : lhs.IsCounted checked row)
    (right : rhs.IsCounted checked row) : (binary op lhs rhs).IsCounted checked row := by
  have leftValue := (yields_lower checked leftTyped).and left
  have rightValue := (yields_lower checked rightTyped).and right
  rw [IsCounted, lower, checkedDivisions_binary checked leftTyped rightTyped]
  refine leftValue.gives.bind fun l' leftKnown => rightValue.gives.bind fun r' rightKnown => ?_
  obtain ⟨leftType, leftCounted⟩ := leftKnown
  obtain ⟨rightType, rightCounted⟩ := rightKnown
  rw [← leftCounted.sites, ← rightCounted.sites, ← leftType, ← rightType]
  exact BinaryOp.gives_hasSites_lower checked op leftCounted.whole rightCounted.whole

/-- A junction is counted if its operands are. -/
theorem isCounted_junction {operands : List Expr}
    (typed : ∀ operand ∈ operands, operand.infer (row.map Value.type) = .ok .bool)
    (inside : ∀ operand ∈ operands, operand.IsCounted checked row) (connective : Connective) :
    (junction connective operands).IsCounted checked row := by
  have each := gives_sum_sites_of_forall (fun operand member => ⟨_, typed operand member⟩) inside
  rw [IsCounted, lower]
  refine each.bind fun values known => .ok ?_
  obtain ⟨whole, sites⟩ := known
  obtain ⟨chars, spelled, closed, starts, ends, opens, closes⟩ := connective.exists_spelled
  -- the connective holds no literal, so it leaves whole what is joined by it
  have parts : (separated connective.spelling (values.map Value.code)).IsWhole ↔
      AllOf Code.IsWhole (values.map Value.code) :=
    isMadeOf_separated spelled starts ends (Piece.isWhole_text spelled closed)
  constructor
  case whole => simp (disch := first | decide | exact rfl) [parts, whole]
  case sites =>
    simp (disch := first | decide | exact rfl) only [sites_append_text, sites_text_append,
      sites_separated spelled opens closes, sites, checkedDivisions, integerDivisions_junction]

/-- A negation is counted if its operand is. -/
theorem isCounted_not {operand : Expr} (inside : operand.IsCounted checked row) :
    (not operand).IsCounted checked row := by
  rw [IsCounted, lower]
  refine inside.bind fun value counted => .ok ⟨?_, ?_⟩
  · simp (disch := first | decide | exact rfl) [counted.whole]
  · simp (disch := first | decide | exact rfl) [sites_append_text, sites_text_append,
      counted.sites, checkedDivisions, integerDivisions_not]

/-- The branches may be converted, which repeats no division. -/
theorem isCounted_case {condition consequent alternative : Expr}
    (test : condition.IsCounted checked row) (left : consequent.IsCounted checked row)
    (right : alternative.IsCounted checked row) :
    (case condition consequent alternative).IsCounted checked row := by
  rw [IsCounted, lower]
  refine test.bind fun t testCounted => left.bind fun l leftCounted =>
    right.bind fun r rightCounted => ?_
  split
  · refine .ok ⟨?_, ?_⟩
    · simp (disch := first | decide | exact rfl) [testCounted.whole,
        Value.isWhole_convert leftCounted.whole, Value.isWhole_convert rightCounted.whole]
    · simp (disch := first | decide | exact rfl) [sites_append_text, sites_append_text_append,
        sites_text_append, Value.sites_convert, testCounted.sites, leftCounted.sites,
        rightCounted.sites]
      -- without checks there is nothing to count
      cases checked <;> simp [checkedDivisions, integerDivisions_case]
  · exact .error _

/-- A pattern match is counted if its operand is. -/
theorem isCounted_like {value : Expr} (inside : value.IsCounted checked row) (pattern : String) :
    (like value pattern).IsCounted checked row := by
  rw [IsCounted, lower]
  refine inside.bind fun v counted => .ok ⟨?_, ?_⟩
  · simp [counted.whole]
  · have quietPattern : (Code.literal pattern).IsQuiet := by simp
    simp [sites_help, counted.sites, quietPattern.sites_eq, checkedDivisions,
      integerDivisions_like]

end

variable (checked : Bool) {row : List Value} (quiet : AllOf Value.IsQuiet row)
include quiet

/-- The code of an expression has a checked division for each integer division. -/
theorem gives_hasSites_lower {e : Expr} {type : DataType}
    (typed : e.infer (row.map Value.type) = .ok type) :
    Gives (e.lower checked row) fun value =>
      value.HasSites (e.checkedDivisions checked (row.map Value.type)) := by
  -- literals and columns are quiet, and each operator has a lemma of its own
  induction e generalizing type with
  | column index => exact isCounted_column quiet index
  | int value => exact .ok (hasSites_of_isQuiet (isMadeOf_text.2 (isQuiet_intLiteral value)) rfl)
  | float value =>
    exact .ok (hasSites_of_isQuiet (isMadeOf_text.2 (isQuiet_floatLiteral value)) rfl)
  | date days => exact .ok (hasSites_of_isQuiet (isMadeOf_text.2 (isQuiet_dateLiteral days)) rfl)
  | text value =>
    exact .ok (hasSites_of_isQuiet (isMadeOf_literal.2 Piece.isQuiet_literal) rfl)
  | binary op lhs rhs left right =>
    obtain ⟨l, r, leftTyped, rightTyped, -⟩ := infer_binary_eq_ok_iff.1 typed
    exact isCounted_binary leftTyped rightTyped (left leftTyped) (right rightTyped)
  | junction connective operands inside =>
    obtain ⟨-, -, operandsTyped⟩ := infer_junction_eq_ok_iff.1 typed
    exact isCounted_junction operandsTyped
      (fun operand member => inside operand member (operandsTyped operand member)) connective
  | not operand inside => exact isCounted_not (inside (infer_not_eq_ok_iff.1 typed).2)
  | case condition consequent alternative test left right =>
    obtain ⟨testTyped, a, b, leftTyped, rightTyped, -⟩ := infer_case_eq_ok_iff.1 typed
    exact isCounted_case (test testTyped) (left leftTyped) (right rightTyped)
  | like value pattern inside =>
    exact isCounted_like (inside (infer_like_eq_ok_iff.1 typed).2) pattern

/-- The code of some expressions has the checked divisions of all of them together. -/
theorem gives_sum_sites_lowerEach {expressions : List Expr}
    (typed : ∀ e ∈ expressions, ∃ type, e.infer (row.map Value.type) = .ok type) :
    Gives (lowerEach checked row expressions) fun values =>
      AllOf Code.IsWhole (values.map Value.code) ∧
        ((values.map Value.code).map Code.sites).sum =
          if checked then integerDivisionsOfAll (row.map Value.type) expressions else 0 := by
  refine gives_sum_sites_of_forall typed fun e member => ?_
  obtain ⟨type, typed⟩ := typed e member
  exact gives_hasSites_lower checked quiet typed

end Expr

end PlanCompiler
