import PlanCompiler.Proofs.Plan.Text.Lines
import PlanCompiler.Proofs.Plan.Wire.Nesting

/-!
# One limit of nesting

Validation and the two readers each count the nesting of an expression in their own way: validation
from the leaves up, the readers from the root down, with the levels that are left. They have the
same limit, and each reports an expression beyond it as one that nests too deeply, whatever its
form.

## Main results

* `Expr.typeInPlan_eq_nesting_iff`: what validation rejects for its nesting;
* `Expr.readers_agree_on_depth`: validation and both readers.
-/

namespace PlanCompiler.Expr

/-- Validation rejects an expression for its nesting exactly if it is too deep. -/
theorem typeInPlan_eq_nesting_iff {input : Schema} {e : Expr} :
    e.typeInPlan input = .error .nesting ↔ maxDepth < e.depth := by
  rw [typeInPlan]
  split
  · rename_i deep
    exact iff_of_true rfl deep
  · rename_i shallow
    refine iff_of_false ?_ shallow
    cases e.infer input <;> simp [Except.mapError]

/-- A printed expression is read again from its line, or its nesting is reported. -/
theorem exists_tokens_of_print {e : Expr}
    (plain : ∀ part ∈ e.parts, part.IsReadBack ∧ part.isEmptyJunction = false)
    (short : ∀ part ∈ e.parts, part.HasShortYear) {text : String} (printed : e.print = .ok text)
    (levels : Nat) :
    ∃ tokens, Token.ofLine text.toList = .ok tokens ∧
      (LineReader.expr levels tokens = .ok (e, []) ↔ e.depth ≤ levels) ∧
      (levels < e.depth → LineReader.expr levels tokens = .error .nesting) := by
  obtain ⟨tokens, scans, read⟩ := spelledBy_of_print printed plain
  have reported (deep : levels < e.depth) : LineReader.expr levels tokens = .error .nesting :=
    List.append_nil tokens ▸ read.nests levels deep short []
  refine ⟨tokens, scans.ofLine_eq, ⟨fun result => ?_, fun shallow => ?_⟩, reported⟩
  -- too deep an expression was reported, so it was not read
  · by_contra deep
    rw [reported (Nat.lt_of_not_le deep)] at result
    cases result
  · have result := (read.reads levels shallow [] trivial e []).2 ⟨short, rfl, rfl⟩
    rwa [List.append_nil] at result

/-- Validation and both readers limit the nesting of expressions alike. Of an expression whose
connectives have operands, and whose lengths are numbers of 32 bits, the reader of binary plans
takes the encoding to its end if the depth is at most 64, and else it reports the nesting, as
validation does in just these cases. If the expression can be printed on one line, with short years
and without NaN, the reader of text plans reads all its tokens or reports the nesting in the same
cases. The three reports have the same wording. -/
theorem readers_agree_on_depth (e : Expr)
    (filled : ∀ part ∈ e.parts, part.FitsWord ∧ part.isEmptyJunction = false) :
    (∀ c : Wire.Cursor, c.WellPlaced → e.encode <+: c.rest →
      (Wire.Reader.expr maxDepth c = .ok (e, c.advance e.encode.length) ↔ e.depth ≤ 64) ∧
        (64 < e.depth → ∃ offset, Wire.Reader.expr maxDepth c = .error ⟨offset, .nesting⟩)) ∧
      (∀ input, e.typeInPlan input ≠ .error .nesting ↔ e.depth ≤ 64) ∧
      ((∀ part ∈ e.parts, part.IsOnOneLine ∧ part.HasShortYear ∧ part.isNaN = false) →
        ∃ text tokens, e.print = .ok text ∧ '\n' ∉ text.toList ∧
          Token.ofLine text.toList = .ok tokens ∧
          (LineReader.expr maxDepth tokens = .ok (e, []) ↔ e.depth ≤ 64) ∧
          (64 < e.depth → LineReader.expr maxDepth tokens = .error .nesting)) ∧
      Wire.DecodeFault.nesting.message = NodeFault.nesting.message ∧
      LineFault.nesting.message = NodeFault.nesting.message := by
  refine ⟨fun c placed ahead => Wire.Reader.expr_of_encode_prefix filled placed ahead,
    fun input => ?_, fun printable => ?_, rfl, rfl⟩
  · rw [ne_eq, typeInPlan_eq_nesting_iff]
    exact Nat.not_lt
  -- short years are of the calendar, so the expression is printed, and its print is divided
  · have short (part : Expr) (member : part ∈ e.parts) := (printable part member).2.1
    obtain ⟨text, printed⟩ := exists_print fun part member => (short part member).isDated
    obtain ⟨tokens, divided, read, reported⟩ := exists_tokens_of_print (fun part member =>
      ⟨isReadBack_of_isNaN (printable part member).2.2, (filled part member).2⟩) short printed
      maxDepth
    exact ⟨text, tokens, printed,
      newline_notMem_of_print printed fun part member => (printable part member).1, divided, read,
      reported⟩

/-- A column under some negations. -/
def negations (n : Nat) : Expr := not^[n] (column 0)

/-- One more negation is put around the others. -/
theorem negations_succ (n : Nat) : negations (n + 1) = not (negations n) :=
  Function.iterate_succ_apply' _ _ _

/-- The depth counts the negations and what they are around. -/
theorem depth_negations (n : Nat) : (negations n).depth = n + 1 := by
  induction n with
  | zero => rfl
  | succ n ih => rw [negations_succ, depth, ih, Nat.add_comm]

/-- The parts of nested negations are nested negations. -/
theorem forall_parts_negations {P : Expr → Prop} (each : ∀ n, P (negations n)) (n : Nat) :
    ∀ part ∈ (negations n).parts, P part := by
  induction n with
  | zero => exact List.forall_mem_singleton.2 (each 0)
  | succ n ih =>
    have outer := each (n + 1)
    rw [negations_succ] at outer ⊢
    exact forall_parts_not.2 ⟨outer, ih⟩

/-- A column under 63 negations is read, and one under 64 negations is too deep. -/
theorem readers_agree_on_depth_negations :
    Wire.Reader.expr maxDepth (Wire.Cursor.start (negations 63).encode) =
        .ok (negations 63, (Wire.Cursor.start (negations 63).encode).advance
          (negations 63).encode.length) ∧
      (∃ offset, Wire.Reader.expr maxDepth (Wire.Cursor.start (negations 64).encode) =
        .error ⟨offset, .nesting⟩) ∧
      ∃ text tokens, (negations 64).print = .ok text ∧ Token.ofLine text.toList = .ok tokens ∧
        LineReader.expr maxDepth tokens = .error .nesting := by
  have filled := forall_parts_negations
    (P := fun part => part.FitsWord ∧ part.isEmptyJunction = false) fun n => by
      cases n with
      | zero => exact ⟨trivial, rfl⟩
      | succ n => exact negations_succ n ▸ ⟨trivial, rfl⟩
  have printable := forall_parts_negations
    (P := fun part => part.IsOnOneLine ∧ part.HasShortYear ∧ part.isNaN = false) fun n => by
      cases n with
      | zero => exact ⟨trivial, trivial, rfl⟩
      | succ n => exact negations_succ n ▸ ⟨trivial, trivial, rfl⟩
  have ahead (n : Nat) : (negations n).encode <+: (Wire.Cursor.start (negations n).encode).rest :=
    (Wire.Cursor.rest_start _).symm ▸ List.prefix_rfl
  -- 63 negations of a column are just within the limit, 64 are one too many
  have ⟨shallow, _⟩ := readers_agree_on_depth (negations 63) (filled 63)
  have ⟨deep, _, printed, _⟩ := readers_agree_on_depth (negations 64) (filled 64)
  have beyond : 64 < (negations 64).depth := by
    rw [depth_negations]
    decide
  obtain ⟨text, tokens, found, -, divided, -, reported⟩ := printed (printable 64)
  exact ⟨(shallow _ (Wire.Cursor.wellPlaced_start _) (ahead 63)).1.2 (depth_negations 63).le,
    (deep _ (Wire.Cursor.wellPlaced_start _) (ahead 64)).2 beyond, text, tokens, found, divided,
    reported beyond⟩

end PlanCompiler.Expr
