import PlanCompiler.Lowering.Expr
import PlanCompiler.Proofs.Code.Literal
import PlanCompiler.Proofs.Expr.Parts
import PlanCompiler.Proofs.Lowering.Expr

/-!
# Values in lines

Whatever the values of a row are, as long as they are plain parts of lines, so are the values that
are computed from them: lowering only puts fixed texts between its operands.

## Main results

* `Expr.isPlain_lower`: the value of an expression;
* `Value.isPlain_hash`, `Value.isPlain_sameKey`: hashes and comparisons of keys.
-/

namespace PlanCompiler

open Code

/-- A member of a list stands at one of its positions. -/
theorem lt_of_mem_zipIdx {α : Type} {xs : List α} {x : α} {k : Nat}
    (member : (x, k) ∈ xs.zipIdx) : k < xs.length := by
  have bound := List.snd_lt_of_mem_zipIdx member
  simpa using bound

variable {scopes : Scope.Names}

namespace Value

/-- The code of a value is plain. -/
def IsPlain (scopes : Scope.Names) (value : Value) : Prop := value.code.IsPlain scopes

/-- A converted plain value is plain. -/
theorem isPlain_convert {value : Value} (plain : value.IsPlain scopes) (type : DataType) :
    (value.convert type).IsPlain scopes := by
  rw [convert]
  split
  · exact plain
  · cases type <;>
      exact (Fits.start _ |>.text _ |>.text _ |>.code plain |>.text _).isPlain

/-- The hash of a plain value is plain. -/
theorem isPlain_hash {value : Value} (plain : value.IsPlain scopes) :
    value.hash.IsPlain scopes := by
  have alone : ∀ argument ∈ [value.code], argument.IsPlain scopes :=
    List.forall_mem_singleton.2 plain
  have converted : ("(int64_t)" ++ value.code : Code).IsPlain scopes :=
    (Fits.start _ |>.code plain).isPlain
  rw [hash]
  split
  · exact isPlain_help _ alone
  · exact isPlain_help _ alone
  all_goals exact isPlain_help _ (List.forall_mem_singleton.2 converted)

/-- A comparison of plain keys is plain. -/
theorem isPlain_sameKey (type : DataType) {a b : Code} (aPlain : a.IsPlain scopes)
    (bPlain : b.IsPlain scopes) : (sameKey type a b).IsPlain scopes := by
  cases type <;>
    exact (Fits.start _ |>.code aPlain |>.text _ |>.code bPlain |>.text _).isPlain

end Value

namespace BinaryOp

variable {lhs rhs : Value}

/-- A comparison of plain values is plain. -/
theorem isPlain_lowerComparison (op : BinaryOp) (lhsPlain : lhs.IsPlain scopes)
    (rhsPlain : rhs.IsPlain scopes) : (op.lowerComparison lhs rhs).IsPlain scopes := by
  have lhsFloat := Value.isPlain_convert lhsPlain .float
  have rhsFloat := Value.isPlain_convert rhsPlain .float
  rw [lowerComparison]
  -- the check has to see the spelling of the operator
  split
  · cases op <;>
      exact (Fits.start _ |>.code lhsPlain |>.text _ |>.code rhsPlain |>.text _
        |>.text _ |>.text _).isPlain
  split
  · cases op <;>
      exact (Fits.start _ |>.code lhsFloat |>.text _ |>.text _ |>.text _
        |>.code rhsFloat |>.text _).isPlain
  · cases op <;>
      exact (Fits.start _ |>.code lhsPlain |>.text _ |>.text _ |>.text _
        |>.code rhsPlain |>.text _).isPlain

/-- Arithmetic on plain values is plain. -/
theorem gives_isPlain_lowerArithmetic (checked : Bool) (op : BinaryOp)
    (lhsPlain : lhs.IsPlain scopes) (rhsPlain : rhs.IsPlain scopes) :
    Gives (op.lowerArithmetic checked lhs rhs) (Value.IsPlain scopes) := by
  have lhsFloat := Value.isPlain_convert lhsPlain .float
  have rhsFloat := Value.isPlain_convert rhsPlain .float
  have both : ∀ argument ∈ [lhs.code, rhs.code], argument.IsPlain scopes :=
    List.forall_mem_cons.2 ⟨lhsPlain, List.forall_mem_singleton.2 rhsPlain⟩
  -- the spelling of the operator is a part of the text, so each operator is checked by itself
  have floats : Gives (.ok
      { code := "(" ++ lhs.convert .float ++ " " ++ op.spelling ++ " " ++ rhs.convert .float ++ ")"
        type := .float } : Except LoweringError Value) (Value.IsPlain scopes) := by
    refine .ok ?_
    cases op <;>
      exact (Fits.start _ |>.code lhsFloat |>.text _ |>.text _ |>.text _
        |>.code rhsFloat |>.text _).isPlain
  have dates : Gives (if op = .add ∨ op = .sub then .ok
      { code := "((int32_t)(" ++ lhs.code ++ " " ++ op.spelling ++ " " ++ rhs.code ++ "))"
        type := .date }
      else .error (.undefinedOperator op lhs.type rhs.type) : Except LoweringError Value)
      (Value.IsPlain scopes) := by
    split
    · refine .ok ?_
      cases op <;>
        exact (Fits.start _ |>.code lhsPlain |>.text _ |>.text _ |>.text _
          |>.code rhsPlain |>.text _).isPlain
    · exact .error _
  rw [lowerArithmetic]
  split
  · split
    · split
      · exact .ok (isPlain_help _ both)
      · exact .ok (Fits.start _ |>.code lhsPlain |>.text _ |>.code rhsPlain
          |>.text _).isPlain
    · refine .ok ?_
      cases op <;>
        exact (Fits.start _ |>.code lhsPlain |>.text _ |>.text _ |>.text _
          |>.code rhsPlain |>.text _).isPlain
  · exact floats
  · exact floats
  · exact floats
  · split
    · exact .ok (Fits.start _ |>.code lhsPlain |>.text _ |>.code rhsPlain
        |>.text _).isPlain
    · exact .error _
  · exact dates
  · exact dates
  · exact .error _

/-- An operation on plain values is plain. -/
theorem gives_isPlain_lower (checked : Bool) (op : BinaryOp) (lhsPlain : lhs.IsPlain scopes)
    (rhsPlain : rhs.IsPlain scopes) : Gives (op.lower checked lhs rhs) (Value.IsPlain scopes) := by
  rw [lower]
  split
  · exact .ok (isPlain_lowerComparison op lhsPlain rhsPlain)
  · exact gives_isPlain_lowerArithmetic checked op lhsPlain rhsPlain

end BinaryOp

namespace Expr

variable (checked : Bool) {row : List Value}

/-- An expression on a plain row is plain. -/
theorem gives_isPlain_lower (plain : ∀ value ∈ row, value.IsPlain scopes) (e : Expr) :
    Gives (e.lower checked row) (Value.IsPlain scopes) := by
  induction e with
  | column index =>
    rw [lower]
    split
    · rename_i value found
      exact .ok (plain value (List.mem_of_getElem? found))
    · exact .error _
  | int value => exact .ok (isPlain_intLiteral value)
  | float value => exact .ok (isPlain_floatLiteral value)
  | date days => exact .ok (isPlain_dateLiteral days)
  | text value => exact .ok (isPlain_literal value)
  | binary op lhs rhs left right =>
    rw [lower]
    exact left.bind fun _ lhsPlain => right.bind fun _ rhsPlain =>
      BinaryOp.gives_isPlain_lower checked op lhsPlain rhsPlain
  | junction connective operands inside =>
    rw [lower, lowerEach_eq_mapM]
    refine (Gives.mapM inside).bind fun parts partsPlain => .ok ?_
    have codes : ∀ code ∈ parts.map Value.code, code.IsPlain scopes :=
      List.forall_mem_map.2 partsPlain
    -- the check of the fixed texts runs once it is known which connective stands between them
    cases connective <;>
      exact (Fits.start _ |>.optional (isPlain_separated (by decide +kernel) codes)
        |>.text _).isPlain
  | not operand inside =>
    rw [lower]
    exact inside.bind fun value operandPlain =>
      .ok (Fits.start _ |>.code operandPlain |>.text _).isPlain
  | case condition consequent alternative test left right =>
    rw [lower]
    refine test.bind fun t testPlain => left.bind fun a leftPlain =>
      right.bind fun b rightPlain => ?_
    split
    · rename_i type _
      exact .ok (Fits.start _ |>.code testPlain |>.text _
        |>.code (Value.isPlain_convert leftPlain type) |>.text _
        |>.code (Value.isPlain_convert rightPlain type) |>.text _).isPlain
    · exact .error _
  | like value pattern inside =>
    rw [lower]
    exact inside.bind fun value valuePlain => .ok (isPlain_help _
      (List.forall_mem_cons.2 ⟨valuePlain, List.forall_mem_singleton.2 (isPlain_literal pattern)⟩))

/-- Expressions on a plain row are plain. -/
theorem gives_isPlain_lowerEach (plain : ∀ value ∈ row, value.IsPlain scopes)
    (expressions : List Expr) :
    Gives (lowerEach checked row expressions) fun values =>
      ∀ value ∈ values, value.IsPlain scopes := by
  rw [lowerEach_eq_mapM]
  exact .mapM fun e _ => gives_isPlain_lower checked plain e

end Expr

end PlanCompiler
