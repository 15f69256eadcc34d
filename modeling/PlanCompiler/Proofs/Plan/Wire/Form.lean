import PlanCompiler.Plan.Wire.Writer
import PlanCompiler.Proofs.Plan.Validity

/-!
# What the binary plan format can hold

The format writes lengths as numbers of 32 bits, has no tag for columns of truth values and no
connective without operands, and its readers bound the nesting of expressions. A node or an
expression within these limits has a form in the format.

## Main definitions

* `Expr.HasWireForm`, `Node.HasWireForm`, `Wire.HasForm`: the format can hold an expression, a
  node or a list of nodes;
* `Wire.placedFrom`: where the nodes of an encoded list stand;
* `Plan.FitsWords`: all lengths in the encoding of a plan are numbers of 32 bits;
* `Expr.wireTag`, `Expr.payload`: the two parts of the encoding of an expression.

## Main results

* `Expr.encode_eq_cons`: the encoding of an expression is its tag and its payload;
* `Plan.hasForm`: the format can hold a plan if its lengths fit.
-/

namespace PlanCompiler

namespace Expr

/-- Operands are encoded one after the other. -/
@[simp]
theorem encodeAll_eq_flatMap (operands : List Expr) :
    encodeAll operands = operands.flatMap encode := by
  induction operands with
  | nil => rfl
  | cons first rest ih => simp [encodeAll, ih]

/-- The kind of an encoded expression. -/
def wireTag : Expr → Wire.ExprTag
  | .column _ => .column
  | .int _ => .int
  | .float _ => .float
  | .date _ => .date
  | .text _ => .text
  | .binary .. => .binary
  | .junction connective _ => .junction connective
  | .not _ => .not
  | .case .. => .case
  | .like .. => .like

/-- What follows the tag of an encoded expression. -/
def payload : Expr → List UInt8
  | .column index => Wire.word index.toNat
  | .int value => Wire.littleEndian 8 value.toUInt64.toNat
  | .float value => Wire.littleEndian 8 value.bits.toNat
  | .date days => Wire.word days.toUInt32.toNat
  | .text value => Wire.string value
  | .binary op lhs rhs => op.tag :: (lhs.encode ++ rhs.encode)
  | .junction _ operands => Wire.sequence encode operands
  | .not operand => operand.encode
  | .case condition consequent alternative =>
    condition.encode ++ consequent.encode ++ alternative.encode
  | .like value pattern => value.encode ++ Wire.string pattern

/-- An encoded expression is its tag with its payload behind it. -/
theorem encode_eq_cons (e : Expr) : e.encode = e.wireTag.byte :: e.payload := by
  cases e <;> simp [encode, wireTag, payload, Wire.sequence]

/-- An encoded expression takes at least one byte. -/
theorem one_le_length_encode (e : Expr) : 1 ≤ e.encode.length := by
  rw [encode_eq_cons, List.length_cons]
  omega

/-- The length that an expression itself writes is a number of 32 bits. -/
def FitsWord : Expr → Prop
  | .text value => value.utf8ByteSize < 2 ^ 32
  | .junction _ operands => operands.length < 2 ^ 32
  | .like _ pattern => pattern.utf8ByteSize < 2 ^ 32
  | _ => True

instance : DecidablePred FitsWord
  | .text value => inferInstanceAs (Decidable (value.utf8ByteSize < 2 ^ 32))
  | .junction _ operands => inferInstanceAs (Decidable (operands.length < 2 ^ 32))
  | .like _ pattern => inferInstanceAs (Decidable (pattern.utf8ByteSize < 2 ^ 32))
  | .column _ | .int _ | .float _ | .date _ | .binary .. | .not _ | .case .. =>
    inferInstanceAs (Decidable True)

/-- The format can hold an expression, which may nest at most `levels` deep. -/
def HasWireForm (levels : Nat) (e : Expr) : Prop :=
  e.depth ≤ levels ∧ ∀ part ∈ e.parts, part.FitsWord ∧ part.isEmptyJunction = false

section

variable {levels : Nat}

attribute [local simp] depth parts FitsWord isEmptyJunction

/-- The format holds no expression without a level left. -/
theorem not_hasWireForm_zero (e : Expr) : ¬ e.HasWireForm 0 := by
  intro ⟨shallow, _⟩
  have := e.one_le_depth
  omega

/-- The format holds every column. -/
theorem hasWireForm_column {index : UInt32} : (column index).HasWireForm (levels + 1) := by
  simp [HasWireForm]

/-- The format holds every integer literal. -/
theorem hasWireForm_int {value : Int64} : (int value).HasWireForm (levels + 1) := by
  simp [HasWireForm]

/-- The format holds every float literal. -/
theorem hasWireForm_float {value : Binary64} : (float value).HasWireForm (levels + 1) := by
  simp [HasWireForm]

/-- The format holds every date literal. -/
theorem hasWireForm_date {days : Int32} : (date days).HasWireForm (levels + 1) := by
  simp [HasWireForm]

/-- The format holds a text literal if its length is a word. -/
theorem hasWireForm_text {value : String} :
    (text value).HasWireForm (levels + 1) ↔ value.utf8ByteSize < 2 ^ 32 := by
  simp [HasWireForm]

/-- The format holds a binary operation if it holds its operands one level down. -/
theorem hasWireForm_binary {op : BinaryOp} {lhs rhs : Expr} :
    (binary op lhs rhs).HasWireForm (levels + 1) ↔
      lhs.HasWireForm levels ∧ rhs.HasWireForm levels := by
  simp only [HasWireForm, forall_parts_binary, depth, FitsWord, isEmptyJunction, and_self,
    true_and]
  constructor
  · rintro ⟨shallow, left, right⟩
    exact ⟨⟨by omega, left⟩, by omega, right⟩
  · rintro ⟨⟨leftShallow, left⟩, rightShallow, right⟩
    exact ⟨by omega, left, right⟩

/-- The format holds a junction of operands that it holds one level down, if there are any and their
number is a word. -/
theorem hasWireForm_junction {connective : Connective} {operands : List Expr} :
    (junction connective operands).HasWireForm (levels + 1) ↔
      operands.length < 2 ^ 32 ∧ operands ≠ [] ∧
        ∀ operand ∈ operands, operand.HasWireForm levels := by
  -- the operands nest one level less deeply than the connective
  simp only [HasWireForm, forall_parts_junction, depth, FitsWord, isEmptyJunction_junction,
    Nat.add_comm 1, Nat.add_le_add_iff_right, maxDepthOf_le_iff, forall_and]
  tauto

/-- The format holds a negation if it holds its operand one level down. -/
theorem hasWireForm_not {operand : Expr} :
    (not operand).HasWireForm (levels + 1) ↔ operand.HasWireForm levels := by
  simp only [HasWireForm, forall_parts_not, depth, FitsWord, isEmptyJunction, and_self, true_and,
    Nat.add_comm 1, Nat.add_le_add_iff_right]

/-- The format holds a case if it holds its three parts one level down. -/
theorem hasWireForm_case {condition consequent alternative : Expr} :
    (case condition consequent alternative).HasWireForm (levels + 1) ↔
      condition.HasWireForm levels ∧ consequent.HasWireForm levels ∧
        alternative.HasWireForm levels := by
  simp only [HasWireForm, forall_parts_case, depth, FitsWord, isEmptyJunction, and_self,
    true_and]
  constructor
  · rintro ⟨shallow, test, left, right⟩
    exact ⟨⟨by omega, test⟩, ⟨by omega, left⟩, by omega, right⟩
  · rintro ⟨⟨testShallow, test⟩, ⟨leftShallow, left⟩, rightShallow, right⟩
    exact ⟨by omega, test, left, right⟩

/-- The format holds a pattern match if it holds its operand one level down and the pattern's length
is a word. -/
theorem hasWireForm_like {value : Expr} {pattern : String} :
    (like value pattern).HasWireForm (levels + 1) ↔
      value.HasWireForm levels ∧ pattern.utf8ByteSize < 2 ^ 32 := by
  simp only [HasWireForm, forall_parts_like, depth, FitsWord, isEmptyJunction,
    Nat.add_comm 1, Nat.add_le_add_iff_right]
  tauto

end

end Expr

namespace Node

/-- The lengths that a node itself writes are numbers of 32 bits. -/
def FitsWord : Node → Prop
  | .scan table columns => table.utf8ByteSize < 2 ^ 32 ∧ columns.length < 2 ^ 32
  | .project _ expressions => expressions.length < 2 ^ 32
  | .aggregate _ groupBy aggregates => groupBy.length < 2 ^ 32 ∧ aggregates.length < 2 ^ 32
  | .filter .. | .join .. => True

instance : DecidablePred FitsWord
  | .scan table columns =>
    inferInstanceAs (Decidable (table.utf8ByteSize < 2 ^ 32 ∧ columns.length < 2 ^ 32))
  | .project _ expressions => inferInstanceAs (Decidable (expressions.length < 2 ^ 32))
  | .aggregate _ groupBy aggregates =>
    inferInstanceAs (Decidable (groupBy.length < 2 ^ 32 ∧ aggregates.length < 2 ^ 32))
  | .filter .. | .join .. => inferInstanceAs (Decidable True)

/-- The operands of a node are within the limits of the format. -/
def HasWireOperands : Node → Prop
  | .scan _ columns => ∀ column ∈ columns, column.type ≠ .bool
  | .filter _ predicate => predicate.HasWireForm Expr.maxDepth
  | .project _ expressions => ∀ e ∈ expressions, e.HasWireForm Expr.maxDepth
  | .join .. | .aggregate .. => True

/-- The format can hold a node. -/
def HasWireForm (node : Node) : Prop :=
  node.FitsWord ∧ node.HasWireOperands ∧ node.encodeBody.length < 2 ^ 32

/-- An encoded column takes at least five bytes. -/
theorem le_length_encodeColumn (column : ScanColumn) : 5 ≤ (encodeColumn column).length := by
  simp [encodeColumn, Wire.word]

/-- An encoded aggregate takes at least one byte. -/
theorem one_le_length_encodeAggregate (aggregate : Aggregate) :
    1 ≤ (encodeAggregate aggregate).length := by
  rw [encodeAggregate, List.length_cons]
  omega

/-- An encoded node takes at least five bytes. -/
theorem le_length_encode (node : Node) : 5 ≤ node.encode.length := by
  simp only [encode, Wire.word, List.length_cons, List.length_append, Wire.length_littleEndian]
  omega

end Node

namespace Wire

/-- The format can hold a database directory and some nodes. -/
structure HasForm (database : String) (nodes : List Node) : Prop where
  /-- The directory. -/
  database : database.utf8ByteSize < 2 ^ 32
  /-- The number of nodes. -/
  count : nodes.length < 2 ^ 32
  /-- There are nodes. -/
  nonempty : nodes ≠ []
  /-- The nodes. -/
  nodes : ∀ node ∈ nodes, node.HasWireForm

/-- Nodes with their positions, of which the first is given. -/
def placedFrom : (start : Nat) → List Node → List (Nat × Node)
  | _, [] => []
  | start, node :: rest => (start, node) :: placedFrom (start + node.encode.length) rest

/-- Without their positions, placed nodes are the nodes. -/
@[simp]
theorem map_snd_placedFrom (start : Nat) (nodes : List Node) :
    (placedFrom start nodes).map (·.2) = nodes := by
  induction nodes generalizing start with
  | nil => rfl
  | cons node rest ih => rw [placedFrom, List.map_cons, ih]

/-- Every node is placed. -/
theorem length_placedFrom (start : Nat) (nodes : List Node) :
    (placedFrom start nodes).length = nodes.length := by
  rw [← List.length_map (·.2), map_snd_placedFrom]

end Wire

namespace Plan

/-- All lengths in the encoding of a plan are numbers of 32 bits: those of its strings and lists,
the number of its nodes and the lengths of their bodies. -/
structure FitsWords (plan : Plan) : Prop where
  /-- The directory of the tables. -/
  database : plan.database.utf8ByteSize < 2 ^ 32
  /-- The number of nodes. -/
  count : plan.nodes.length < 2 ^ 32
  /-- The strings and lists of the nodes. -/
  nodes : ∀ node ∈ plan.nodes, node.FitsWord
  /-- The strings and lists of the expressions. -/
  parts : ∀ node ∈ plan.nodes, ∀ part ∈ node.parts, part.FitsWord
  /-- The bodies of the nodes. -/
  bodies : ∀ node ∈ plan.nodes, node.encodeBody.length < 2 ^ 32

end Plan

/-- The format holds an expression that is typed in a plan and has no length beyond a word. -/
theorem Expr.hasWireForm_of_typeInPlan {input : Schema} {type : DataType} {e : Expr}
    (typed : e.typeInPlan input = .ok type) (fits : ∀ part ∈ e.parts, part.FitsWord) :
    e.HasWireForm Expr.maxDepth := by
  obtain ⟨shallow, filled⟩ := Expr.shallow_of_typeInPlan typed
  exact ⟨shallow, fun part member => ⟨fits part member, filled part member⟩⟩

/-- The operands of a valid node are within the limits of the format. -/
theorem Node.hasWireOperands_of_resolve {earlier : List Schema} {schema : Schema} {node : Node}
    (resolved : node.resolve earlier = .ok schema) (fits : ∀ part ∈ node.parts, part.FitsWord) :
    node.HasWireOperands := by
  cases node with
  | scan table columns => exact (resolve_scan_eq_ok_iff.1 resolved).2.2.1
  | filter input predicate =>
    exact Expr.hasWireForm_of_typeInPlan (resolve_filter_eq_ok_iff.1 resolved).1 fits
  | project input expressions =>
    intro e member
    obtain ⟨-, typed⟩ := resolve_project_eq_ok_iff.1 resolved
    -- every expression of a projection has a type, which limits its depth
    obtain ⟨type, -, typed⟩ := exists_of_mem_of_forall₂ typed member
    refine Expr.hasWireForm_of_typeInPlan typed fun part found => fits part ?_
    exact List.mem_flatMap.2 ⟨e, member, found⟩
  | join | aggregate => trivial

/-- The format can hold a plan if its lengths fit. -/
theorem Plan.hasForm {plan : Plan} (fits : plan.FitsWords) :
    Wire.HasForm plan.database plan.nodes where
  database := fits.database
  count := fits.count
  nonempty := plan.nodes_ne_nil
  nodes := by
    intro node member
    obtain ⟨before, schema, resolved⟩ := plan.exists_resolve member
    have operands := Node.hasWireOperands_of_resolve resolved (fits.parts node member)
    exact ⟨fits.nodes node member, operands, fits.bodies node member⟩

end PlanCompiler
