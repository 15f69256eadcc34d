import PlanCompiler.Plan.Wire.Reader
import PlanCompiler.Proofs.Plan.Wire.Form
import PlanCompiler.Proofs.Plan.Wire.Recognition

/-!
# Formats of expressions, nodes and plans

What the readers of the binary plan format recognise: the encodings of the expressions and nodes
that the format can hold, and nothing else.

## Main results

* `Wire.Reader.recognises_expr`: encodings of expressions that nest at most a number of levels;
* `Wire.Reader.recognises_node`: encodings of nodes, each with its position;
* `Wire.Reader.recognises_contents`: encodings of plans, whatever follows them;
* `Wire.Reader.recognises_nodes`: encodings of plans that nothing follows.
-/

namespace PlanCompiler.Wire.Reader

/-! ## Expressions -/

/-- The format of what follows the tag of an expression. -/
def payloadFormat (levels : Nat) (tag : ExprTag) : Nat → Expr → List UInt8 → List UInt8 → Prop :=
  fun _ e bytes _ => e.wireTag = tag ∧ e.HasWireForm levels ∧ bytes = e.payload

/-- An integer literal is recognised by its eight bytes. -/
theorem recognises_intPayload (levels : Nat) :
    (number 8 "integer literal" >>= fun n =>
      pure (Expr.int (UInt64.ofNat n).toInt64)).Recognises (payloadFormat (levels + 1) .int) := by
  refine (recognises_long _ fun value => Expr.int value.toInt64).congr ?_
  intro start e bytes rest
  cases e <;> simp only [payloadFormat, Expr.wireTag, Expr.payload, Expr.hasWireForm_int,
    Expr.int.injEq, true_and, reduceCtorEq, false_and, exists_const]
  constructor
  · rintro ⟨w, rfl, rfl⟩
    rw [UInt64.toUInt64_toInt64]
  · rintro rfl
    exact ⟨_, (Int64.toInt64_toUInt64 _).symm, rfl⟩

/-- A float literal is recognised by the eight bytes of its bits. -/
theorem recognises_floatPayload (levels : Nat) :
    (number 8 "float literal" >>= fun n =>
      pure (Expr.float ⟨UInt64.ofNat n⟩)).Recognises (payloadFormat (levels + 1) .float) := by
  refine (recognises_long _ fun value => Expr.float ⟨value⟩).congr ?_
  intro start e bytes rest
  cases e <;> simp only [payloadFormat, Expr.wireTag, Expr.payload, Expr.hasWireForm_float,
    Expr.float.injEq, true_and, reduceCtorEq, false_and, exists_const]
  constructor
  · rintro ⟨w, rfl, rfl⟩
    rfl
  · rintro rfl
    exact ⟨_, rfl, rfl⟩

/-- A date literal is recognised by its four bytes. -/
theorem recognises_datePayload (levels : Nat) :
    (word "date literal" >>= fun days =>
      pure (Expr.date days.toInt32)).Recognises (payloadFormat (levels + 1) .date) := by
  refine ((recognises_word _).bind fun days => recognises_pure _).congr ?_
  intro start e bytes rest
  cases e <;> simp only [Then, payloadFormat, Expr.wireTag, Expr.payload,
    Expr.hasWireForm_date, Expr.date.injEq, reduceCtorEq, false_and, and_false, and_true,
    true_and, exists_const, exists_and_left, ↓existsAndEq, exists_eq_left, List.append_nil]
  constructor
  · rintro ⟨w, rfl, rfl⟩
    rw [UInt32.toUInt32_toInt32]
  · rintro rfl
    exact ⟨_, (Int32.toInt32_toUInt32 _).symm, rfl⟩

section

variable {levels : Nat}
  (operand : (expr levels).Recognises fun _ e bytes _ => e.HasWireForm levels ∧ bytes = e.encode)

include operand

/-- The operands of an operator follow its tag. -/
theorem recognises_operands (op : BinaryOp) :
    (expr levels >>= fun lhs => expr levels >>= fun rhs => pure (Expr.binary op lhs rhs)).Recognises
      fun _ e bytes _ => ∃ lhs rhs, e = .binary op lhs rhs ∧ lhs.HasWireForm levels ∧
        rhs.HasWireForm levels ∧ bytes = lhs.encode ++ rhs.encode := by
  refine (operand.bind fun lhs => operand.bind fun rhs => recognises_pure _).congr ?_
  intro start e bytes rest
  simp only [Then]
  constructor
  · rintro ⟨lhs, xs, _, ⟨left, rfl⟩, ⟨rhs, ys, _, ⟨right, rfl⟩, ⟨rfl, rfl⟩, rfl⟩, rfl⟩
    exact ⟨lhs, rhs, rfl, left, right, by rw [List.append_nil]⟩
  · rintro ⟨lhs, rhs, rfl, left, right, rfl⟩
    exact ⟨lhs, _, _, ⟨left, rfl⟩, ⟨rhs, _, [], ⟨right, rfl⟩, ⟨rfl, rfl⟩, by simp⟩, rfl⟩

/-- A binary operation is recognised by its operator's tag and its operands. -/
theorem recognises_binaryPayload :
    (here >>= fun operatorAt => byte "binary operator" >>= fun tag =>
      match BinaryOp.ofTag? tag with
      | none => fail operatorAt (.operatorTag tag)
      | some op => expr levels >>= fun lhs => expr levels >>= fun rhs =>
        pure (Expr.binary op lhs rhs)).Recognises (payloadFormat (levels + 1) .binary) := by
  refine (recognises_here.bind fun operatorAt => (recognises_byte _).bind
    (G := fun tag _ e bytes _ => ∃ op, op.tag = tag ∧ ∃ lhs rhs, e = .binary op lhs rhs ∧
      lhs.HasWireForm levels ∧ rhs.HasWireForm levels ∧
      bytes = lhs.encode ++ rhs.encode) fun tag => ?_).congr ?_
  -- the tag names the operator, or none
  · simp only [← BinaryOp.ofTag?_eq_some_iff]
    cases BinaryOp.ofTag? tag with
    | none => exact (recognises_fail _ _).congr (by simp)
    | some op => exact (recognises_operands operand op).congr (by simp)
  · intro start e bytes rest
    cases e <;> simp [Then, payloadFormat, Expr.wireTag, Expr.payload, Expr.hasWireForm_binary,
      and_assoc]

/-- A junction is recognised by the number of its operands, which is not zero, and the operands. -/
theorem recognises_junctionPayload (connective : Connective) :
    (here >>= fun countAt => count "operand count" 1 >>= fun n =>
      if n = 0 then
        fail countAt .emptyJunction >>= fun _ : PUnit =>
          replicate (expr levels) n >>= fun operands => pure (Expr.junction connective operands)
      else replicate (expr levels) n >>= fun operands =>
        pure (Expr.junction connective operands)).Recognises
      (payloadFormat (levels + 1) (.junction connective)) := by
  refine (recognises_here.bind fun countAt => (recognises_count _ _).bind fun n =>
    Recognises.unless ((operand.replicate n).bind fun operands => recognises_pure _)).congr ?_
  intro start e bytes rest
  cases e <;> simp only [Then, payloadFormat, Expr.wireTag, Expr.payload, sequence,
    Expr.hasWireForm_junction, Expr.junction.injEq, ExprTag.junction.injEq, Each.iff_flatMap,
    reduceCtorEq, false_and, and_false, and_true, true_and, exists_const, exists_and_left,
    ↓existsAndEq, exists_eq_left, exists_eq_right_right', List.append_nil, List.nil_append,
    List.length_append, List.length_eq_zero_iff, ne_eq]
  rename_i connective' operands
  constructor
  · rintro ⟨⟨⟨small, -⟩, nonempty, forms, rfl⟩, rfl⟩
    exact ⟨rfl, ⟨small, nonempty, forms⟩, rfl⟩
  · rintro ⟨rfl, ⟨small, nonempty, forms⟩, rfl⟩
    refine ⟨⟨⟨small, ?_⟩, nonempty, forms, rfl⟩, rfl⟩
    -- the reader refuses a count that the bytes left cannot hold, at one byte for each operand
    have enough : operands.length * 1 ≤ _ :=
      length_mul_le_length_flatMap fun operand _ => Expr.one_le_length_encode operand
    exact Nat.le_trans enough (Nat.le_add_right _ _)

end

/-- The reader of an expression recognises the encodings of the expressions that nest no deeper
than it allows. -/
theorem recognises_expr (levels : Nat) :
    (expr levels).Recognises fun _ e bytes _ => e.HasWireForm levels ∧ bytes = e.encode := by
  induction levels with
  | zero =>
    -- no expression has depth zero, so that the reader is right to fail
    refine (recognises_here.bind fun start => recognises_fail start _).congr ?_
    simp [Then, Expr.not_hasWireForm_zero]
  | succ levels ih =>
    refine (recognises_here.bind fun start => (recognises_byte _).bind
      (G := fun byte start e bytes rest => ∃ tag, ExprTag.ofByte? byte = some tag ∧
        payloadFormat (levels + 1) tag start e bytes rest) fun byte => ?_).congr ?_
    -- by the tag: the payloads that need an argument have a lemma each
    · cases ExprTag.ofByte? byte with
      | none => exact (recognises_fail _ _).congr (by simp)
      | some tag =>
        simp only [Option.some.injEq, exists_eq_left']
        cases tag with
        | column =>
          refine ((recognises_word _).bind fun index => recognises_pure _).congr ?_
          intro start e bytes rest
          cases e <;> simp [Then, payloadFormat, Expr.wireTag, Expr.payload,
            Expr.hasWireForm_column]
        | int => exact recognises_intPayload levels
        | float => exact recognises_floatPayload levels
        | date => exact recognises_datePayload levels
        | text =>
          refine ((recognises_string _).bind fun value => recognises_pure _).congr ?_
          intro start e bytes rest
          cases e <;> simp [Then, payloadFormat, Expr.wireTag, Expr.payload, Expr.hasWireForm_text]
        | binary => exact recognises_binaryPayload ih
        | junction connective => exact recognises_junctionPayload ih connective
        | not =>
          refine (ih.bind fun operand => recognises_pure _).congr ?_
          intro start e bytes rest
          cases e <;> simp [Then, payloadFormat, Expr.wireTag, Expr.payload, Expr.hasWireForm_not]
        | case =>
          refine (ih.bind fun condition => ih.bind fun consequent => ih.bind fun alternative =>
            recognises_pure _).congr ?_
          intro start e bytes rest
          cases e <;> simp [Then, payloadFormat, Expr.wireTag, Expr.payload, Expr.hasWireForm_case,
            and_assoc]
        | like =>
          refine (ih.bind fun value => (recognises_string _).bind fun pattern =>
            recognises_pure _).congr ?_
          intro start e bytes rest
          cases e <;> simp [Then, payloadFormat, Expr.wireTag, Expr.payload, Expr.hasWireForm_like,
            and_assoc]
    · intro start e bytes rest
      simp [Then, payloadFormat, Expr.encode_eq_cons, ExprTag.ofByte?_eq_some_iff]

/-! ## Nodes -/

/-- A scan's column is recognised by its encoding, unless it is a truth value. -/
theorem recognises_scanColumn :
    scanColumn.Recognises fun _ column bytes _ =>
      column.type ≠ .bool ∧ bytes = Node.encodeColumn column := by
  refine ((recognises_word _).bind fun index => recognises_here.bind fun typeAt =>
    (recognises_byte _).bind (G := fun tag _ column bytes _ =>
      column.index = index ∧ column.type.tag? = some tag ∧ bytes = []) fun tag => ?_).congr ?_
  -- an unknown tag and the tag of a boolean are both refused
  · split
    · rename_i type known
      refine (recognises_pure _).congr ?_
      rintro start ⟨_, _⟩ bytes rest
      simp [← DataType.ofTag?_eq_some_iff, known, and_assoc, @eq_comm _ type]
    · rename_i unknown
      refine (recognises_fail _ _).congr ?_
      simp [← DataType.ofTag?_eq_some_iff, unknown]
  · rintro start ⟨index, type⟩ bytes rest
    cases type <;> simp [Then, Node.encodeColumn, DataType.tag?]

/-- An aggregate is recognised by its encoding. -/
theorem recognises_aggregate :
    aggregate.Recognises fun _ a bytes _ => bytes = Node.encodeAggregate a := by
  refine (recognises_here.bind fun start => (recognises_byte _).bind
    (G := fun tag _ a bytes _ => a.tag = tag ∧ tag :: bytes = Node.encodeAggregate a)
    fun tag => ?_).congr ?_
  -- the tag tells which aggregate follows, and the others have other tags
  · split
    · refine ((recognises_word _).bind fun column => recognises_pure _).congr ?_
      rintro start (_ | _ | _ | _) bytes rest
      all_goals subst tag; simp [Then, Node.encodeAggregate, Aggregate.tag, Aggregate.column?]
    split
    · refine (recognises_pure _).congr ?_
      rintro start (_ | _ | _ | _) bytes rest
      all_goals subst tag; simp [Node.encodeAggregate, Aggregate.tag, Aggregate.column?]
    split
    · refine ((recognises_word _).bind fun column => recognises_pure _).congr ?_
      rintro start (_ | _ | _ | _) bytes rest
      all_goals subst tag; simp [Then, Node.encodeAggregate, Aggregate.tag, Aggregate.column?]
    split
    · refine ((recognises_word _).bind fun column => recognises_pure _).congr ?_
      rintro start (_ | _ | _ | _) bytes rest
      all_goals subst tag; simp [Then, Node.encodeAggregate, Aggregate.tag, Aggregate.column?]
    · refine (recognises_fail _ _).congr ?_
      rintro start (_ | _ | _ | _) bytes rest
      all_goals simp [Aggregate.tag, *, eq_comm]
  · intro start a bytes rest
    simp [Then, Node.encodeAggregate]

/-- The body of a node with a given tag is recognised by its encoding. -/
theorem recognises_nodeBody (tagAt : Nat) (tag : UInt8) :
    (nodeBody tagAt tag).Recognises fun _ node bytes _ =>
      node.tag = tag ∧ node.FitsWord ∧ node.HasWireOperands ∧ bytes = node.encodeBody := by
  rw [nodeBody]
  split
  · -- scan
    subst tag
    refine ((recognises_string _).bind fun table => recognises_scanColumn.counted_bind
      (fun column _ => Node.le_length_encodeColumn column)
      fun columns => recognises_pure _).congr ?_
    rintro start (_ | _ | _ | _ | _) bytes rest
    all_goals simp [Then, Node.tag, Node.FitsWord, Node.HasWireOperands, Node.encodeBody, and_assoc]
  split
  · -- filter
    subst tag
    refine ((recognises_word _).bind fun input => (recognises_expr _).bind fun predicate =>
      recognises_pure _).congr ?_
    rintro start (_ | _ | _ | _ | _) bytes rest
    all_goals simp [Then, Node.tag, Node.FitsWord, Node.HasWireOperands, Node.encodeBody]
  split
  · -- project
    subst tag
    refine ((recognises_word _).bind fun input => (recognises_expr _).counted_bind
      (fun e _ => e.one_le_length_encode) fun expressions => recognises_pure _).congr ?_
    rintro start (_ | _ | _ | _ | _) bytes rest
    all_goals simp [Then, Node.tag, Node.FitsWord, Node.HasWireOperands, Node.encodeBody, sequence,
      and_assoc]
  split
  · -- join
    subst tag
    refine ((recognises_word _).bind fun left => (recognises_word _).bind fun right =>
      (recognises_word _).bind fun leftKey => (recognises_word _).bind fun rightKey =>
      recognises_pure _).congr ?_
    rintro start (_ | _ | _ | _ | _) bytes rest
    all_goals simp [Then, Node.tag, Node.FitsWord, Node.HasWireOperands, Node.encodeBody]
  split
  · -- aggregate
    subst tag
    refine ((recognises_word _).bind fun input => (recognises_word _).of_every.counted_bind
      (fun column _ => Nat.le_of_eq (length_littleEndian 4 _).symm) fun groupBy =>
      recognises_aggregate.of_every.counted_bind
        (fun a _ => Node.one_le_length_encodeAggregate a) fun aggregates =>
      recognises_pure _).congr ?_
    rintro start (_ | _ | _ | _ | _) bytes rest
    all_goals simp [Then, Node.tag, Node.FitsWord, Node.HasWireOperands, Node.encodeBody, and_assoc]
  · -- no operator has another tag
    refine (recognises_fail _ _).congr ?_
    rintro start (_ | _ | _ | _ | _) bytes rest
    all_goals simp [Node.tag, *, eq_comm]

/-- A node is recognised by its encoding, and its start is noted. -/
theorem recognises_node :
    node.Recognises fun start placed bytes _ =>
      placed.1 = start ∧ placed.2.HasWireForm ∧ bytes = placed.2.encode := by
  refine (recognises_here.bind fun tagAt => (recognises_byte _).bind fun tag =>
    recognises_here.bind fun lengthAt => (recognises_number 4 _).bind fun length =>
    (recognises_nodeBody tagAt tag).delimited fun node => recognises_pure (tagAt, node)).congr ?_
  rintro start ⟨position, node⟩ bytes rest
  simp [Then, Node.encode, Node.HasWireForm, Wire.word, and_assoc, and_left_comm]

/-- Nodes one after the other are recognised by their encodings, each placed where the one before it
ends. -/
theorem each_node_iff {start : Nat} {placed : List (Nat × Node)} {bytes rest : List UInt8} :
    Each (fun start placed bytes _ =>
        placed.1 = start ∧ placed.2.HasWireForm ∧ bytes = placed.2.encode)
      start placed bytes rest ↔
      (∀ node ∈ placed.map (·.2), node.HasWireForm) ∧
        placed = placedFrom start (placed.map (·.2)) ∧
        bytes = (placed.map (·.2)).flatMap Node.encode := by
  induction placed generalizing start bytes with
  | nil => simp [Each, placedFrom]
  | cons first others ih =>
    obtain ⟨position, node⟩ := first
    simp only [Each, ih, List.map_cons, List.forall_mem_cons, placedFrom, List.cons.injEq,
      Prod.mk.injEq, and_true, List.flatMap_cons]
    constructor
    · rintro ⟨xs, ys, ⟨rfl, form, rfl⟩, ⟨forms, places, rfl⟩, rfl⟩
      exact ⟨⟨form, forms⟩, ⟨rfl, places⟩, rfl⟩
    · rintro ⟨⟨form, forms⟩, ⟨rfl, places⟩, rfl⟩
      exact ⟨_, _, ⟨rfl, form, rfl⟩, ⟨forms, places, rfl⟩, rfl⟩

/-- The database directory and the nodes at the front of a buffer that may go on behind them. -/
def contents : Reader (String × List (Nat × Node)) := do
  if (← take magic.length "magic") ≠ magic then fail 0 .badMagic
  let versionAt ← here
  let found ← number 2 "version"
  if found ≠ version.toNat then fail versionAt (.version found)
  let database ← string "database path"
  let countAt ← here
  let n ← count "node count" 5
  if n = 0 then fail countAt .noNodes
  return (database, ← replicate node n)

/-- A check comes before all that follows. -/
theorem check_bind {α β : Type} {p : Prop} [Decidable p] {offset : Nat} {fault : DecodeFault}
    (go : Reader α) (next : α → Reader β) :
    ((if p then fail offset fault >>= fun _ : PUnit => go else go) >>= next) =
      if p then fail offset fault >>= fun _ : PUnit => go >>= next else go >>= next := by
  split
  · exact bind_assoc _ _ _
  · rfl

/-- The nodes are read by reading the contents and checking that nothing is left. -/
theorem nodes_eq_bind : nodes = contents >>= atEnd := by
  simp only [nodes, contents, check_bind, bind_assoc, pure_bind]
  rfl

/-- The contents are recognised by the header and the encoded nodes. -/
theorem recognises_contents :
    contents.Recognises fun start result bytes _ =>
      HasForm result.1 (result.2.map (·.2)) ∧
      result.2 = placedFrom (start + (header result.1 result.2.length).length)
        (result.2.map (·.2)) ∧
      bytes = encodeNodes result.1 (result.2.map (·.2)) := by
  refine ((recognises_take _ _).bind fun read => Recognises.unless
    (recognises_here.bind fun versionAt => (recognises_number 2 _).bind fun found =>
      Recognises.unless ((recognises_string _).bind fun database =>
        recognises_here.bind fun countAt => (recognises_count _ _).bind fun n =>
        Recognises.unless ((recognises_node.replicate n).bind fun placed =>
          recognises_pure (database, placed))))).congr ?_
  rintro start ⟨database, placed⟩ bytes rest
  simp only [Then, ne_eq, Decidable.not_not, each_node_iff, encodeNodes, header, Prod.mk.injEq,
    and_assoc, exists_and_left, ↓existsAndEq, true_and, exists_eq_left, exists_eq_left',
    List.append_nil, List.nil_append, List.append_assoc, List.length_append, List.length_nil,
    List.length_map, length_littleEndian, Nat.add_zero]
  -- the reader checks the count, and the format speaks of the nodes
  have nonempty_iff : placed.length ≠ 0 ↔ placed.map (·.2) ≠ [] := by simp
  constructor
  · rintro ⟨-, fits, small, -, nonempty, forms, places, rfl⟩
    refine ⟨⟨fits, by rwa [List.length_map], nonempty_iff.1 nonempty, forms⟩, ?_, rfl⟩
    simpa only [Nat.add_assoc] using places
  · rintro ⟨⟨fits, small, nonempty, forms⟩, places, rfl⟩
    -- the count passes its check, since every node takes five bytes at least
    have long := length_mul_le_length_flatMap fun node (_ : node ∈ placed.map (·.2)) =>
      node.le_length_encode
    rw [List.length_map] at long small
    refine ⟨by decide, fits, small, ?_, nonempty_iff.2 nonempty, forms, ?_, rfl⟩
    · exact Nat.le_trans long (Nat.le_add_right _ _)
    · simpa only [Nat.add_assoc] using places

/-- The nodes are recognised by the contents with nothing behind them. -/
theorem recognises_nodes :
    nodes.Recognises fun start result bytes rest => rest = [] ∧
      HasForm result.1 (result.2.map (·.2)) ∧
      result.2 = placedFrom (start + (header result.1 result.2.length).length)
        (result.2.map (·.2)) ∧
      bytes = encodeNodes result.1 (result.2.map (·.2)) := by
  rw [nodes_eq_bind]
  refine (recognises_contents.bind recognises_atEnd).congr ?_
  intro start result bytes rest
  constructor
  · rintro ⟨_, xs, _, ⟨form, places, rfl⟩, ⟨rfl, rfl, rfl⟩, rfl⟩
    exact ⟨rfl, form, places, List.append_nil _⟩
  · rintro ⟨rfl, form, places, rfl⟩
    exact ⟨result, _, [], ⟨form, places, rfl⟩, ⟨rfl, rfl, rfl⟩, (List.append_nil _).symm⟩

end PlanCompiler.Wire.Reader
