import PlanCompiler.Proofs.Expr.Literals
import PlanCompiler.Proofs.Plan.Text.Lines

/-!
# Numbers in text plans

The text of a NaN has neither its sign nor its payload, so that a node with such a literal is read
as another node. The other node has the same line, and validation finds the same fault with it, if
any.

## Main definitions

* `Node.asRead`: the node that the line of a node is read as.

## Main results

* `Node.print_asRead`: both have the same line;
* `validate_map_asRead`: validation treats them alike.
-/

namespace PlanCompiler

namespace Expr

/-- An expression with the numbers that its float literals are read as. -/
def asRead (e : Expr) : Expr := e.mapLiterals Binary64.asRead id

/-- Expressions that print alike do so in a row. -/
theorem printEach_map_congr {expressions : List Expr} {f : Expr → Expr}
    (same : ∀ e ∈ expressions, (f e).print = e.print) :
    printEach (expressions.map f) = printEach expressions := by
  induction expressions with
  | nil => rfl
  | cons first rest ih =>
    obtain ⟨firstSame, others⟩ := List.forall_mem_cons.1 same
    rw [List.map_cons, printEach, printEach, firstSame, ih others]

/-- An expression prints like the one with the numbers that are read. -/
theorem print_asRead (e : Expr) : e.asRead.print = e.print := by
  induction e with
  | column | int | date | text => rfl
  | float value => exact congrArg Except.ok value.planText_asRead
  | binary op lhs rhs left right =>
    rw [asRead, mapLiterals, print, print, ← left, ← right]
    rfl
  | junction connective operands inside =>
    rw [asRead, mapLiterals, mapLiteralsOfEach_eq_map, print, print, ← printEach_map_congr inside]
    rfl
  | not operand inside =>
    rw [asRead, mapLiterals, print, print, ← inside]
    rfl
  | case condition consequent alternative test left right =>
    rw [asRead, mapLiterals, print, print, ← test, ← left, ← right]
    rfl
  | like value pattern inside =>
    rw [asRead, mapLiterals, print, print, ← inside]
    rfl

/-- The numbers that are read are read back. -/
theorem isReadBack_asRead (e : Expr) : e.asRead.IsReadBack := by
  cases e with
  | float value => exact value.asRead_asRead
  | _ => trivial

/-- Reading numbers empties no junction and fills none. -/
theorem isEmptyJunction_asRead (e : Expr) : e.asRead.isEmptyJunction = e.isEmptyJunction := by
  cases e with
  | junction connective operands => cases operands <;> rfl
  | _ => rfl

/-- Reading numbers changes no text. -/
theorem isOnOneLine_asRead (e : Expr) : e.asRead.IsOnOneLine ↔ e.IsOnOneLine := by
  cases e <;> exact Iff.rfl

/-- Reading numbers changes no date. -/
theorem hasShortYear_asRead (e : Expr) : e.asRead.HasShortYear ↔ e.HasShortYear := by
  cases e <;> exact Iff.rfl

/-- What holds of all parts, read or not, is the same. -/
theorem forall_parts_asRead {P : Expr → Prop} (e : Expr) :
    (∀ part ∈ e.asRead.parts, P part) ↔ ∀ part ∈ e.parts, P part.asRead := by
  rw [asRead, parts_mapLiterals, List.forall_mem_map]
  rfl

/-- The text format holds an expression exactly if it holds the one with the numbers that are read.
-/
theorem hasTextForm_asRead (e : Expr) : e.asRead.HasTextForm ↔ e.HasTextForm := by
  rw [HasTextForm, HasTextForm, forall_parts_asRead]
  simp only [isEmptyJunction_asRead]
  rw [asRead, depth_mapLiterals]

end Expr

namespace Node

/-- A node with the numbers that its float literals are read as. -/
def asRead : Node → Node
  | .filter input predicate => .filter input predicate.asRead
  | .project input expressions => .project input (expressions.map Expr.asRead)
  | .scan table columns => .scan table columns
  | .join left right leftKey rightKey => .join left right leftKey rightKey
  | .aggregate input groupBy aggregates => .aggregate input groupBy aggregates

/-- A node prints like the one with the numbers that are read. -/
theorem print_asRead (node : Node) : node.asRead.print = node.print := by
  cases node with
  | scan | join | aggregate => rfl
  | filter input predicate => rw [asRead, print, print, Expr.print_asRead]
  | project input expressions => 
    rw [asRead, print, print, Expr.printEach_map_congr fun e _ => e.print_asRead]

/-- Nodes print like those with the numbers that are read. -/
theorem printLines_map_asRead (nodes : List Node) :
    printLines (nodes.map asRead) = printLines nodes := by
  induction nodes with
  | nil => rfl
  | cons node rest ih => rw [List.map_cons, printLines, printLines, print_asRead, ih]

/-- The parts of a node with the numbers that are read are the parts with them. -/
theorem forall_parts_asRead {P : Expr → Prop} (node : Node) :
    (∀ part ∈ node.asRead.parts, P part) ↔ ∀ part ∈ node.parts, P part.asRead := by
  cases node with
  | scan | join | aggregate => exact iff_of_true nofun nofun
  | filter input predicate => exact predicate.forall_parts_asRead
  | project input expressions =>
    simp only [asRead, parts, List.forall_mem_flatMap, List.forall_mem_map,
      Expr.forall_parts_asRead]

/-- The parts of nodes with the numbers that are read are the parts with them. -/
theorem forall_parts_map_asRead {P : Expr → Prop} {nodes : List Node} :
    (∀ node ∈ nodes.map asRead, ∀ part ∈ node.parts, P part) ↔
      ∀ node ∈ nodes, ∀ part ∈ node.parts, P part.asRead := by
  simp only [List.forall_mem_map, forall_parts_asRead]

/-- The text format holds a node exactly if it holds the one with the numbers that are read. -/
theorem hasTextForm_asRead (node : Node) : node.asRead.HasTextForm ↔ node.HasTextForm := by
  cases node with
  | scan | join | aggregate => exact Iff.rfl
  | filter input predicate => exact predicate.hasTextForm_asRead
  | project input expressions =>
    simp only [asRead, HasTextForm, List.forall_mem_map, Expr.hasTextForm_asRead]

/-! ## Validation -/

/-- Reading numbers leaves the inputs of a node. -/
theorem inputs_asRead (node : Node) : node.asRead.inputs = node.inputs := by
  cases node <;> rfl

/-- Reading numbers leaves the schema of a node and whether it is valid. -/
theorem resolve_asRead (earlier : List Schema) (node : Node) :
    node.asRead.resolve earlier = node.resolve earlier := by
  cases node with
  | scan | join | aggregate => rfl
  | filter input predicate =>
    rw [asRead, resolve, resolve, Expr.asRead, Expr.typeInPlan_mapLiterals]
  | project input expressions =>
    have same (schema : Schema) : Expr.typeInPlan schema ∘ Expr.asRead = Expr.typeInPlan schema :=
      funext fun e => e.typeInPlan_mapLiterals _ _ schema
    rw [asRead, resolve, resolve, List.isEmpty_map, List.mapM_map, same]

end Node

/-- Reading numbers leaves the schemas of nodes and whether they are valid. -/
theorem resolveAll_map_asRead (earlier : List Schema) (nodes : List Node) :
    resolveAll earlier (nodes.map Node.asRead) = resolveAll earlier nodes := by
  induction nodes generalizing earlier with
  | nil => rfl
  | cons node rest ih =>
    simp only [List.map_cons, resolveAll, Node.checkInputs, Node.inputs_asRead, Node.resolve_asRead,
      ih]

/-- Validation finds the same row types, or the same fault of the same node. -/
theorem validate_map_asRead (nodes : List Node) :
    validate (nodes.map Node.asRead) = validate nodes := by
  have read : consumers (nodes.map Node.asRead) = consumers nodes := by
    funext position
    simp only [consumers, List.flatMap_map, Node.inputs_asRead]
  rw [validate, validate, resolveAll_map_asRead, List.isEmpty_map, checkConsumers, checkConsumers,
    read, List.length_map]

end PlanCompiler
