import PlanCompiler.Proofs.Plan.Wire.Grammar
import PlanCompiler.Proofs.Plan.Wire.Run

/-!
# Binary expressions that nest too deeply

The reader of an expression that nests more deeply than it allows reports the nesting and nothing
else. Whatever comes before the first operand that is too deep is read, since the format can hold
it, and then the reader of that operand has no levels left.

## Main definitions

* `Wire.Reader.ReportsNesting`: a reader reports the nesting wherever certain bytes are ahead.

## Main results

* `Wire.Reader.reportsNesting_expr`: expressions that nest too deeply;
* `Wire.Reader.expr_of_encode_prefix`: all encoded expressions.
-/

namespace PlanCompiler.Wire.Reader

variable {α β : Type} {reader : Reader α} {next : α → Reader β} {xs ys : List UInt8}

/-- A reader reports the nesting wherever certain bytes are ahead. -/
def ReportsNesting (reader : Reader α) (bytes : List UInt8) : Prop :=
  ∀ c : Cursor, c.WellPlaced → bytes <+: c.rest → ∃ offset, reader c = .error ⟨offset, .nesting⟩

namespace ReportsNesting

/-- What reports the nesting does so whatever follows. -/
theorem append (h : reader.ReportsNesting xs) (ys : List UInt8) :
    reader.ReportsNesting (xs ++ ys) :=
  fun c placed ahead => h c placed ((List.prefix_append xs ys).trans ahead)

/-- Nothing is read behind an operand that is too deep. -/
theorem bind (h : reader.ReportsNesting xs) : (reader >>= next).ReportsNesting xs := by
  intro c placed ahead
  obtain ⟨offset, reported⟩ := h c placed ahead
  exact ⟨offset, bind_of_error reported⟩

/-- Asking for the offset leaves whether the nesting is reported. -/
theorem here {next : Nat → Reader β} (h : ∀ offset, (next offset).ReportsNesting xs) :
    (Reader.here >>= next).ReportsNesting xs :=
  fun c placed ahead => h c.offset c placed ahead

/-- What stands before an operand that is too deep is read. -/
theorem after {format : Nat → α → List UInt8 → List UInt8 → Prop} {a : α}
    (second : (next a).ReportsNesting ys) (first : reader.Recognises format)
    (spelled : ∀ start rest, format start a xs (ys ++ rest)) :
    (reader >>= next).ReportsNesting (xs ++ ys) := by
  rintro c placed ⟨rest, ahead⟩
  rw [List.append_assoc] at ahead
  have passed : c.Over xs (c.advance xs.length) := ⟨⟨ys ++ rest, ahead⟩, rfl⟩
  have behind : (c.advance xs.length).rest = ys ++ rest := by
    rw [Cursor.rest_advance, ← ahead, List.drop_left]
  have found := (first c placed a _).2 ⟨xs, behind ▸ spelled c.offset rest, passed⟩
  obtain ⟨offset, reported⟩ := second _ (passed.wellPlaced placed) ⟨rest, behind.symm⟩
  exact ⟨offset, (bind_of_ok found).trans reported⟩

/-- A byte is read. -/
theorem byte {what : String} {b : UInt8} {next : UInt8 → Reader β}
    (h : (next b).ReportsNesting ys) : (Reader.byte what >>= next).ReportsNesting (b :: ys) := by
  rw [← List.singleton_append]
  exact h.after (recognises_byte what) fun _ _ => rfl

/-- Of a list of elements the first that is too deep is reported. -/
theorem replicate {P : α → Prop} {encode : α → List UInt8}
    (read : reader.Recognises fun _ a bytes _ => P a ∧ bytes = encode a) {as : List α}
    (each : ∀ a ∈ as, P a ∨ reader.ReportsNesting (encode a)) (deep : ∃ a ∈ as, ¬ P a) :
    (Reader.replicate reader as.length).ReportsNesting (as.flatMap encode) := by
  induction as with
  | nil =>
    obtain ⟨_, member, -⟩ := deep
    cases member
  | cons a as ih =>
    obtain ⟨first, others⟩ := List.forall_mem_cons.1 each
    rw [List.flatMap_cons]
    -- the first operand that is too deep is reported; those in front of it are read
    rcases first with shallow | reported
    · obtain ⟨b, member, tooDeep⟩ := deep
      have later : ∃ b ∈ as, ¬ P b :=
        ⟨b, (List.mem_cons.1 member).resolve_left fun same => tooDeep (same ▸ shallow), tooDeep⟩
      exact after (ih others later).bind read fun _ _ => ⟨shallow, rfl⟩
    · exact reported.bind.append _

end ReportsNesting

/-- An operand that the format can hold is read, and one that it cannot hold is reported. -/
theorem ReportsNesting.operand {levels : Nat} {e : Expr} {next : Expr → Reader β}
    (reported : ¬ e.HasWireForm levels → (expr levels).ReportsNesting e.encode)
    (others : e.HasWireForm levels → (next e).ReportsNesting ys) :
    (expr levels >>= next).ReportsNesting (e.encode ++ ys) := by
  by_cases form : e.HasWireForm levels
  · exact (others form).after (recognises_expr levels) fun _ _ => ⟨form, rfl⟩
  · exact (reported form).bind.append ys

/-- An expression whose lengths fit and whose connectives have operands can only be one that nests
too deeply if the format cannot hold it. That is what the reader reports then. -/
theorem reportsNesting_expr {levels : Nat} : ∀ {e : Expr},
    (∀ part ∈ e.parts, part.FitsWord ∧ part.isEmptyJunction = false) →
    ¬ e.HasWireForm levels → (expr levels).ReportsNesting e.encode := by
  induction levels with
  | zero => exact fun _ _ c _ _ => ⟨c.offset, rfl⟩
  | succ levels ih =>
    intro e filled deep
    rw [Expr.encode_eq_cons]
    refine .here fun start => .byte ?_
    rw [ExprTag.ofByte?_eq_some_iff.2 rfl]
    cases e with
    | column => exact absurd Expr.hasWireForm_column deep
    | int => exact absurd Expr.hasWireForm_int deep
    | float => exact absurd Expr.hasWireForm_float deep
    | date => exact absurd Expr.hasWireForm_date deep
    | text => exact absurd (Expr.hasWireForm_text.2 (filled _ List.mem_cons_self).1) deep
    | binary op lhs rhs =>
      obtain ⟨-, left, right⟩ := Expr.forall_parts_binary.1 filled
      rw [Expr.hasWireForm_binary, not_and] at deep
      refine .here fun operatorAt => .byte ?_
      rw [BinaryOp.ofTag?_eq_some_iff.2 rfl]
      exact .operand (ih left) fun form => (ih right (deep form)).bind
    | junction connective operands =>
      obtain ⟨⟨small, nonempty⟩, inside⟩ := Expr.forall_parts_junction.1 filled
      have nonempty := Expr.isEmptyJunction_junction.1 nonempty
      -- the count is accepted, at one byte for each operand
      have counted (rest : List UInt8) :
          operands.length * 1 ≤ (operands.flatMap Expr.encode ++ rest).length := by
        rw [List.length_append]
        exact Nat.le_add_right_of_le
          (length_mul_le_length_flatMap fun operand _ => Expr.one_le_length_encode operand)
      have anyDeep : ∃ operand ∈ operands, ¬ operand.HasWireForm levels := by
        by_contra allShallow
        push Not at allShallow
        exact deep (Expr.hasWireForm_junction.2 ⟨small, nonempty, allShallow⟩)
      refine .here fun countAt => .after ?_ (recognises_count _ 1) fun _ rest =>
        ⟨small, counted rest, rfl⟩
      rw [if_neg (mt List.length_eq_zero_iff.1 nonempty)]
      exact (ReportsNesting.replicate (recognises_expr levels)
        (fun operand member => or_iff_not_imp_left.2 (ih (inside operand member))) anyDeep).bind
    | not operand =>
      rw [Expr.hasWireForm_not] at deep
      exact (ih (Expr.forall_parts_not.1 filled).2 deep).bind
    | case condition consequent alternative =>
      obtain ⟨-, first, second, third⟩ := Expr.forall_parts_case.1 filled
      rw [Expr.hasWireForm_case, not_and, not_and] at deep
      rw [Expr.payload, List.append_assoc]
      exact .operand (ih first) fun test => .operand (ih second) fun form =>
        (ih third (deep test form)).bind
    | like value pattern =>
      obtain ⟨⟨small, -⟩, inside⟩ := Expr.forall_parts_like.1 filled
      rw [Expr.hasWireForm_like, not_and'] at deep
      exact (ih inside (deep small)).bind.append _

/-- Of an encoded expression the reader takes all bytes if it nests no deeper than the reader
allows, and else it reports the nesting. -/
theorem expr_of_encode_prefix {levels : Nat} {e : Expr} {c : Cursor}
    (filled : ∀ part ∈ e.parts, part.FitsWord ∧ part.isEmptyJunction = false)
    (placed : c.WellPlaced) (ahead : e.encode <+: c.rest) :
    (expr levels c = .ok (e, c.advance e.encode.length) ↔ e.depth ≤ levels) ∧
      (levels < e.depth → ∃ offset, expr levels c = .error ⟨offset, .nesting⟩) := by
  rw [recognises_expr levels c placed]
  refine ⟨⟨?_, fun shallow => ?_⟩, fun deep => ?_⟩
  · rintro ⟨_, ⟨⟨shallow, -⟩, -⟩, -⟩
    exact shallow
  · exact ⟨e.encode, ⟨⟨shallow, filled⟩, rfl⟩, ahead, rfl⟩
  · exact reportsNesting_expr filled (fun form => Nat.not_le.2 deep form.1) c placed ahead

end PlanCompiler.Wire.Reader
