import PlanCompiler.Proofs.Code.Atomic
import PlanCompiler.Proofs.Code.Lines
import PlanCompiler.Proofs.Lowering.Scope.Groups
import PlanCompiler.Proofs.Lowering.Scope.Join
import PlanCompiler.Proofs.Lowering.Types

/-!
# Operands of the generated program

Lowering puts casts, negations and operators around the code of operands without looking at it. This
is right as long as every operand stands by itself: then nothing that is put around it can bind to a
part of it only. The columns of rows and batches do, and an expression does if the values do that it
reads, however it is nested and whatever literals it has.

## Main definitions

* `Value.IsAtomic`: the code of a value stands by itself;
* `Batch.IsIndexed`: the values of a batch are elements of arrays;
* `Producer.HandsOnly`: a producer hands on something that satisfies a condition.

## Main results

* `Expr.gives_isAtomic_lower`: expressions over such values are such values;
* `PlanTree.gives_isAtomic_rows`, `PlanTree.gives_isIndexed_batches`: what pipelines make available;
* `Plan.isAtomic_lower_and_handsOnly`: both for the nodes of plans.
-/

namespace PlanCompiler

open Code

/-! ## Expressions -/

/-- The expression of a value stands by itself. -/
def Value.IsAtomic (value : Value) : Prop := PlanCompiler.IsAtomic value.code.text

/-- A converted atomic value is atomic. -/
theorem Value.isAtomic_convert {value : Value} (atomic : value.IsAtomic) (type : DataType) :
    PlanCompiler.IsAtomic (value.convert type).text := by
  rw [convert]
  split
  · exact atomic
  · exact (Spans.start "((" |>.text type.representation |>.text ")" |>.operand atomic
      |>.text ")").isAtomic (by cases type <;> rfl)

namespace BinaryOp

variable {lhs rhs : Value} (lhsAtomic : lhs.IsAtomic) (rhsAtomic : rhs.IsAtomic)
include lhsAtomic rhsAtomic

/-- A comparison of atomic values is atomic. -/
theorem isAtomic_lowerComparison (op : BinaryOp) :
    PlanCompiler.IsAtomic (op.lowerComparison lhs rhs).text := by
  rw [lowerComparison]
  split_ifs
  · exact (Spans.start "(strcmp(" |>.operand lhsAtomic |>.text ", " |>.operand rhsAtomic
      |>.text ") " |>.text op.spelling |>.text " 0)").isAtomic (by cases op <;> rfl)
  · exact (Spans.start "(" |>.operand (Value.isAtomic_convert lhsAtomic _) |>.text " "
      |>.text op.spelling |>.text " " |>.operand (Value.isAtomic_convert rhsAtomic _)
      |>.text ")").isAtomic (by cases op <;> rfl)
  · exact (Spans.start "(" |>.operand lhsAtomic |>.text " " |>.text op.spelling |>.text " "
      |>.operand rhsAtomic |>.text ")").isAtomic (by cases op <;> rfl)

/-- Arithmetic on atomic values is atomic. -/
theorem gives_isAtomic_lowerArithmetic (checked : Bool) (op : BinaryOp) :
    Gives (op.lowerArithmetic checked lhs rhs) Value.IsAtomic := by
  rw [lowerArithmetic]
  split
  · split
    · split
      · refine .ok (isAtomic_call (by decide) ?_)
        simpa using ⟨lhsAtomic, rhsAtomic⟩
      · exact .ok (Spans.start "(" |>.operand lhsAtomic |>.text " / " |>.operand rhsAtomic
          |>.text ")").isAtomic
    · exact .ok ((Spans.start "((int64_t)((uint64_t)" |>.operand lhsAtomic |>.text " "
        |>.text op.spelling |>.text " (uint64_t)" |>.operand rhsAtomic |>.text "))").isAtomic
          (by cases op <;> rfl))
  case h_5 =>
    split
    · exact .ok (Spans.start "((int64_t)" |>.operand lhsAtomic |>.text " - (int64_t)"
        |>.operand rhsAtomic |>.text ")").isAtomic
    · exact .error _
  case h_6 | h_7 =>
    split
    · exact .ok ((Spans.start "((int32_t)(" |>.operand lhsAtomic |>.text " "
        |>.text op.spelling |>.text " " |>.operand rhsAtomic |>.text "))").isAtomic
          (by cases op <;> rfl))
    · exact .error _
  case h_8 => exact .error _
  -- numbers are computed with as floats
  all_goals
    exact .ok ((Spans.start "(" |>.operand (Value.isAtomic_convert lhsAtomic _) |>.text " "
      |>.text op.spelling |>.text " " |>.operand (Value.isAtomic_convert rhsAtomic _)
      |>.text ")").isAtomic (by cases op <;> rfl))

/-- An operation on atomic values is atomic. -/
theorem gives_isAtomic_lower (checked : Bool) (op : BinaryOp) :
    Gives (op.lower checked lhs rhs) Value.IsAtomic := by
  rw [lower]
  split
  · exact .ok (isAtomic_lowerComparison lhsAtomic rhsAtomic op)
  · exact gives_isAtomic_lowerArithmetic lhsAtomic rhsAtomic checked op

end BinaryOp

namespace Expr

variable (checked : Bool) {row : List Value} (atomic : ∀ value ∈ row, value.IsAtomic)
include atomic

/-- An expression is lowered to an operand that stands by itself. -/
theorem gives_isAtomic_lower (e : Expr) : Gives (e.lower checked row) Value.IsAtomic := by
  induction e with
  | column index =>
    rw [lower]
    split
    · rename_i value found
      exact .ok (atomic value (List.mem_of_getElem? found))
    · exact .error _
  | int value => exact .ok (isAtomic_intLiteral value)
  | float value => exact .ok (isAtomic_floatLiteral value)
  | date days => exact .ok (isAtomic_dateLiteral days)
  | text value => exact .ok (isAtomic_literal value)
  | binary op lhs rhs left right =>
    rw [lower]
    exact left.bind fun l lAtomic => right.bind fun r rAtomic =>
      BinaryOp.gives_isAtomic_lower lAtomic rAtomic checked op
  | junction connective operands inside =>
    rw [lower, lowerEach_eq_mapM]
    refine (Gives.mapM inside).bind fun values atomic => .ok ?_
    -- the operands are joined without parentheses of their own, but each of them is balanced
    have balanced :
        IsBalanced (Code.separated connective.spelling (values.map Value.code)).chars := by
      refine isBalanced_separated (by cases connective <;> decide +kernel) fun code member => ?_
      obtain ⟨value, among, rfl⟩ := List.mem_map.1 member
      exact (atomic value among).isBalanced
    exact (Spans.start "(" |>.inner balanced |>.text ")").isAtomic
  | not operand inside =>
    rw [lower]
    exact inside.bind fun value atomic =>
      .ok (Spans.start "(!" |>.operand atomic |>.text ")").isAtomic
  | case condition consequent alternative test left right =>
    rw [lower]
    refine test.bind fun t tAtomic => left.bind fun l lAtomic => right.bind fun r rAtomic => ?_
    split
    · exact .ok (Spans.start "(" |>.operand tAtomic |>.text " ? "
        |>.operand (Value.isAtomic_convert lAtomic _) |>.text " : "
        |>.operand (Value.isAtomic_convert rAtomic _) |>.text ")").isAtomic
    · exact .error _
  | like value pattern inside =>
    rw [lower]
    refine inside.bind fun v atomic => .ok (isAtomic_call (by decide) ?_)
    simpa using ⟨atomic, isAtomic_literal pattern⟩

end Expr

/-! ## Values at hand -/

/-- A name with a number behind it is a name. -/
theorem isName_numbered {letter : String} (named : IsName letter) (k : Nat) :
    IsName (letter ++ toString k) :=
  named.append (isIdentifier_toString k)

/-- An identifier has no brackets. -/
theorem Code.isBalanced_name {name : Name} (word : IsIdentifier name.text) :
    IsBalanced (name : Code).chars :=
  (isAtomic_of_isName (isName_name word)).isBalanced

/-- The columns that a probe finds are atomic. -/
theorem Join.isAtomic_found (join : Join) : AllOf Value.IsAtomic join.found := by
  intro value member
  obtain ⟨entry, -, rfl⟩ := List.mem_map.1 member
  have word : IsIdentifier (join.column entry.2).text :=
    join.isIdentifier_named (isIdentifier_numbered (by decide) entry.2)
  exact (IsArray.name word).isAtomic_element
    (isBalanced_name (join.isIdentifier_named (by decide)))

namespace Groups

variable (groups : Groups)

/-- A column of a group table is an array. -/
theorem isArray_column {letter : String} (named : IsName letter) (k : Nat) :
    IsArray (.member groups.record (letter ++ toString k)) :=
  .member (Name.isIdentifier_ofNode_none _ _) (isName_numbered named k)

/-- The row of a group is atomic. -/
theorem isAtomic_groupRow {group : Name} (word : IsIdentifier group.text) :
    AllOf Value.IsAtomic (groups.groupRow group) := by
  intro value member
  rcases List.mem_append.1 member with member | member <;>
    obtain ⟨entry, -, rfl⟩ := List.mem_map.1 member <;>
      exact (groups.isArray_column (by decide) entry.2).isAtomic_element (isBalanced_name word)

/-- The row of an aggregation without groups is atomic. -/
theorem isAtomic_totals : AllOf Value.IsAtomic groups.totals := by
  intro value member
  obtain ⟨⟨⟨aggregate, type⟩, j⟩, -, rfl⟩ := List.mem_map.1 member
  have word : IsIdentifier (groups.accumulator j).text :=
    groups.isIdentifier_named (isIdentifier_numbered (by decide) j)
  simp only
  split
  · -- the value of an aggregation without rows is chosen in parentheses
    exact (Spans.start "(" |>.inner (isBalanced_name (groups.isIdentifier_named (by decide)))
      |>.text " ? " |>.inner (isBalanced_name word) |>.text " : (" |>.text type.representation
      |>.text ")0)").isAtomic (by cases type <;> rfl)
  · exact isAtomic_of_isName (isName_name word)

end Groups

/-! ## Rows -/

/-- A scan hands on atomic values. -/
theorem RowPipeline.isAtomic_scan (site : Site) (columns : List ScanColumn) :
    AllOf Value.IsAtomic (RowPipeline.scan site columns).output := by
  intro value member
  obtain ⟨entry, -, rfl⟩ := List.mem_map.1 member
  have isArray : IsArray (.member (Table.record site.node) ("c" ++ toString entry.2)) :=
    .member (Name.isIdentifier_ofNode_none _ _) (isName_numbered (by decide) entry.2)
  exact isArray.isAtomic_element (isBalanced_name (Name.isIdentifier_ofNode_none _ _))

/-- The pairs with a row stand by themselves if the row does. -/
theorem Join.gives_isAtomic_probeRow (join : Join) (checked : Bool) (rightKey : UInt32)
    {row : List Value} (atomic : AllOf Value.IsAtomic row) :
    Gives (join.probeRow checked rightKey row) fun probed =>
      AllOf Value.IsAtomic probed.output :=
  .of_bind fun _ => .ok (List.forall_mem_append.2 ⟨join.isAtomic_found, atomic⟩)

/-- Every pipeline of rows hands on atomic values. -/
theorem PlanTree.gives_isAtomic_rows (checked : Bool) (tree : PlanTree) :
    Gives (tree.rows checked) fun pipeline => AllOf Value.IsAtomic pipeline.output := by
  induction tree with
  | scan site table columns => exact .ok (RowPipeline.isAtomic_scan site columns)
  | filter site predicate input ih =>
    exact ih.bind fun pipeline atomic => .of_bind fun condition => .ok atomic
  | project site expressions input ih =>
    -- the columns are handed on by name, whatever the expressions are
    refine .of_bind fun pipeline => .of_bind fun row => .ok fun value member => ?_
    obtain ⟨column, found, rfl⟩ := List.mem_map.1 member
    obtain ⟨entry, -, rfl⟩ := List.mem_map.1 found
    exact isAtomic_of_isName (isName_name
      (Name.isIdentifier_ofNode _ _ (isIdentifier_numbered (by decide) entry.2)))
  | join site leftKey rightKey left right ihLeft ihRight =>
    refine .of_bind fun join => .of_bind fun leftPipeline => ihRight.bind fun pipeline atomic => ?_
    exact (join.gives_isAtomic_probeRow checked rightKey atomic).bind fun probed probedAtomic =>
      .ok probedAtomic
  | aggregate site groupBy aggregates input ih =>
    refine .of_bind fun groups => .of_bind fun pipeline => ?_
    split
    · exact .of_bind fun taken =>
        .ok (groups.isAtomic_groupRow (groups.isIdentifier_named (by decide)))
    · exact .of_bind fun taken => .ok groups.isAtomic_totals

/-! ## Batches -/

/-- The columns of a batch are arrays, and its rows are found by variables. -/
structure Batch.IsIndexed (batch : Batch) : Prop where
  arrays : ∀ column ∈ batch.columns, IsArray column.array
  offsets : ∀ column ∈ batch.columns, ∀ offset ∈ column.offset, IsIdentifier offset.text
  selection : ∀ selection ∈ batch.selection, IsIdentifier selection.text

namespace Batch

/-- The values of each row of a batch stand by themselves. -/
theorem IsIndexed.isAtomic_row {batch : Batch} (indexed : batch.IsIndexed) {index : Name}
    (atomic : IsAtomic index.text) : AllOf Value.IsAtomic (batch.row index) := by
  have balanced : IsBalanced (index : Code).chars := by
    rw [chars_name]
    exact atomic.isBalanced
  -- the position of a row is read from the selection, if there is one
  have position : IsBalanced (batch.position index).chars := by
    have word := indexed.selection
    rw [Batch.position]
    split
    · rename_i selection selected
      exact ((IsArray.name (word selection selected)).isAtomic_element balanced).isBalanced
    · exact balanced
  intro value member
  obtain ⟨column, among, rfl⟩ := List.mem_map.1 member
  refine (indexed.arrays column among).isAtomic_element ?_
  have word := indexed.offsets column among
  split
  · rename_i offset shifted
    exact isBalanced_append_separator_append (by decide +kernel)
      (isBalanced_name (word offset shifted)) position
  · exact position

/-- Slices of arrays are read from a position on. -/
theorem isIndexed_slices {base : Name} (word : IsIdentifier base.text) (name : Name) (total : Code)
    {arrays : List (Code × DataType)} (areArrays : ∀ array ∈ arrays, IsArray array.1) :
    (slices base name total arrays).2.IsIndexed where
  arrays := List.forall_mem_map.2 areArrays
  offsets := List.forall_mem_map.2 fun _ _ => by
    rintro _ ⟨⟩
    exact word
  selection := nofun

end Batch

/-- The collected rows of a join are read from its buffers. -/
theorem Join.gives_isIndexed_probeBatch (join : Join) (checked : Bool) (schema : Schema)
    (rightKey : UInt32) (batch : Batch) :
    Gives (join.probeBatch checked schema rightKey batch) fun probed =>
      probed.output.IsIndexed := by
  refine .of_bind fun key => .ok (Batch.isIndexed_slices (join.isIdentifier_named (by decide)) _
    (join.named "on") (List.forall_mem_map.2 fun array among => ?_))
  obtain ⟨entry, -, rfl⟩ := List.mem_map.1 among
  exact .name (join.isIdentifier_named (isIdentifier_numbered (by decide) entry.2))

namespace Groups

variable (groups : Groups)

/-- The groups are read from the columns of their table. -/
theorem isIndexed_slices : groups.slices.2.IsIndexed := by
  refine Batch.isIndexed_slices (groups.isIdentifier_named (by decide)) _ groups.count
    (List.forall_mem_append.2 ⟨?_, ?_⟩)
  all_goals exact List.forall_mem_map.2 fun entry _ => groups.isArray_column (by decide) entry.2

/-- The single row has arrays of its own. -/
theorem isIndexed_totalBatch : groups.totalBatch.IsIndexed where
  arrays := by
    refine List.forall_mem_map.2 fun array among => ?_
    obtain ⟨entry, -, rfl⟩ := List.mem_map.1 among
    exact .name (groups.isIdentifier_named (isIdentifier_numbered (by decide) entry.2))
  offsets := List.forall_mem_map.2 fun _ _ _ member => absurd member (Option.not_mem_none _)
  selection := fun _ member => absurd member (Option.not_mem_none _)

end Groups

/-- Every pipeline of batches hands on columns that are arrays at rows that are found by variables.
-/
theorem PlanTree.gives_isIndexed_batches (checked simd : Bool) (tree : PlanTree) :
    Gives (tree.batches checked simd) fun pipeline => pipeline.output.IsIndexed := by
  induction tree with
  | scan site table columns =>
    refine .ok (Batch.isIndexed_slices (Name.isIdentifier_ofNode _ _ (by decide)) _
      (.member (Table.record site.node) "rows") (List.forall_mem_map.2 fun entry _ => ?_))
    exact .member (Name.isIdentifier_ofNode_none _ _) (isName_numbered (by decide) entry.2)
  | filter site predicate input ih =>
    refine ih.bind fun pipeline indexed => .of_bind fun condition => .ok ?_
    -- a selection changes neither the arrays nor the offsets
    refine ⟨indexed.arrays, indexed.offsets, ?_⟩
    rintro _ ⟨⟩
    exact Name.isIdentifier_ofNode _ _ (by decide)
  | project site expressions input ih =>
    refine .of_bind fun pipeline => .of_bind fun types => .of_bind fun row => .ok ?_
    refine ⟨List.forall_mem_map.2 fun column among => ?_,
      List.forall_mem_map.2 fun _ _ _ member => absurd member (Option.not_mem_none _),
      fun _ member => absurd member (Option.not_mem_none _)⟩
    obtain ⟨entry, -, rfl⟩ := List.mem_map.1 among
    exact .name (Name.isIdentifier_ofNode _ _ (isIdentifier_numbered (by decide) entry.2))
  | join site leftKey rightKey left right ihLeft ihRight =>
    refine .of_bind fun join => .of_bind fun leftPipeline => .of_bind fun pipeline => ?_
    exact (join.gives_isIndexed_probeBatch checked site.schema rightKey pipeline.output).bind
      fun probed indexed => .ok indexed
  | aggregate site groupBy aggregates input ih =>
    refine .of_bind fun groups => .of_bind fun pipeline => ?_
    split
    · exact .of_bind fun taken => .ok groups.isIndexed_slices
    · exact .of_bind fun taken => .ok groups.isIndexed_totalBatch

/-! ## Plans -/

/-- A producer calls its consumer once, at a place where it has something that satisfies a
condition. -/
def Producer.HandsOnly {ρ : Type} (condition : ρ → Prop) (producer : Producer ρ) : Prop :=
  ∃ visits pipeline, producer.Realises visits pipeline ∧ condition pipeline.output

namespace Plan

variable (plan : Plan) (checked simd : Bool) {k : Nat} (bound : k < plan.nodes.length)
include bound

/-- Every node hands only atomic values to the consumer of its rows. -/
theorem handsOnly_produceRows : (plan.produceRows checked k).HandsOnly (AllOf Value.IsAtomic) := by
  obtain ⟨tree, unfolds, typed⟩ := plan.exists_unfolds bound
  obtain ⟨pipeline, lowered, -⟩ := PlanTree.yields_rows checked typed
  exact ⟨_, pipeline, realises_produceRows unfolds lowered,
    PlanTree.gives_isAtomic_rows checked tree pipeline lowered⟩

/-- Every node hands on only batches with atomic values in each row. -/
theorem handsOnly_produceBatches : (plan.produceBatches checked simd k).HandsOnly fun batch =>
    ∀ index : Name, IsAtomic index.text → AllOf Value.IsAtomic (batch.row index) := by
  obtain ⟨tree, unfolds, typed⟩ := plan.exists_unfolds bound
  obtain ⟨pipeline, lowered, -⟩ := PlanTree.yields_batches checked simd typed
  have indexed := PlanTree.gives_isIndexed_batches checked simd tree pipeline lowered
  exact ⟨_, pipeline, realises_produceBatches unfolds lowered, fun _ => indexed.isAtomic_row⟩

omit plan bound

/-- Whatever the program puts an operator, a cast or a negation around stands by itself. An
expression over values that stand by themselves is lowered to one that does, with checked divisions
and without; and every node of a plan hands on such values only, in rows and, at any index, in
batches. -/
theorem isAtomic_lower_and_handsOnly :
    (∀ (e : Expr) (checked : Bool) (row : List Value), (∀ value ∈ row, value.IsAtomic) →
      ∀ value, e.lower checked row = .ok value → value.IsAtomic) ∧
      ∀ (plan : Plan) (checked simd : Bool), ∀ k < plan.nodes.length,
        (plan.produceRows checked k).HandsOnly (fun row => ∀ value ∈ row, value.IsAtomic) ∧
          (plan.produceBatches checked simd k).HandsOnly fun batch =>
            ∀ index : Name, IsAtomic index.text → ∀ value ∈ batch.row index, value.IsAtomic :=
  ⟨fun e checked _ atomic => Expr.gives_isAtomic_lower checked atomic e,
    fun plan checked simd _ bound =>
      ⟨plan.handsOnly_produceRows checked bound, plan.handsOnly_produceBatches checked simd bound⟩⟩

theorem isAtomic_lower_and_handsOnly_ordersByName :
    (⟨"s0.c1[f1_sel[i]]", .text⟩ : Value).IsAtomic ∧
      (∃ value, (Expr.not (.like (.column 0) "(\"")).lower true [⟨"s0.c1[f1_sel[i]]", .text⟩] =
        .ok value ∧ value.IsAtomic) ∧
      3 < ordersByName.nodes.length ∧
      (ordersByName.produceRows true 3).HandsOnly (fun row => ∀ value ∈ row, value.IsAtomic) ∧
      (ordersByName.produceBatches true true 3).HandsOnly fun batch =>
        ∀ index : Name, IsAtomic index.text → ∀ value ∈ batch.row index, value.IsAtomic := by
  have column : (⟨"s0.c1[f1_sel[i]]", .text⟩ : Value).IsAtomic := isAtomic_iff.2 (by decide +kernel)
  have bound : 3 < ordersByName.nodes.length := by decide
  have ⟨expressions, nodes⟩ := isAtomic_lower_and_handsOnly
  exact ⟨column, ⟨_, rfl, expressions (.not (.like (.column 0) "(\"")) true _
    (List.forall_mem_singleton.2 column) _ rfl⟩, bound,
    nodes ordersByName true true 3 bound⟩

end Plan

end PlanCompiler
