import PlanCompiler.Plan.Tree
import PlanCompiler.Proofs.Expr.Literals
import PlanCompiler.Proofs.Plan.Validity

/-!
# Plans without their texts

The directory of the tables, the names of the tables, the texts in expressions and the patterns are
the strings of a plan. Blanking replaces each of them by one that is always the same. This changes
no type, so that a blanked plan is a plan with the same row types and, up to blanking, the same
tree. Two plans that differ in their strings only are blanked to the same plan.

## Main definitions

* `Expr.blanked`, `Node.blanked`, `PlanTree.blanked`, `Plan.blanked`: without texts.

## Main results

* `Node.resolve_blanked`: blanked nodes have the same row types;
* `Plan.tree_blanked`: the tree of a blanked plan;
* `Plan.blanked_eq_iff`: plans that differ in their strings only.
-/

namespace PlanCompiler

/-! ## Expressions -/

namespace Expr

mutual

/-- An expression with nothing in its texts and patterns. -/
def blanked : Expr → Expr
  | .column index => .column index
  | .int value => .int value
  | .float value => .float value
  | .date days => .date days
  | .text _ => .text ""
  | .binary op lhs rhs => .binary op lhs.blanked rhs.blanked
  | .junction connective operands => .junction connective (blankedEach operands)
  | .not operand => .not operand.blanked
  | .case condition consequent alternative =>
    .case condition.blanked consequent.blanked alternative.blanked
  | .like value _ => .like value.blanked ""

/-- Some expressions with nothing in their texts and patterns. -/
def blankedEach : List Expr → List Expr
  | [] => []
  | first :: rest => first.blanked :: blankedEach rest

end

/-- Expressions lose their strings one by one. -/
@[simp]
theorem blankedEach_eq_map (expressions : List Expr) :
    blankedEach expressions = expressions.map blanked := by
  induction expressions with
  | nil => rfl
  | cons first rest ih => rw [blankedEach, ih, List.map_cons]

/-- To lose the strings is to replace the text literals. -/
theorem blanked_eq_mapLiterals (e : Expr) : e.blanked = e.mapLiterals id fun _ => "" := by
  induction e with
  | column | int | float | date | text => rfl
  | binary op lhs rhs left right => rw [blanked, mapLiterals, left, right]
  | junction connective operands inside =>
    rw [blanked, mapLiterals, blankedEach_eq_map, mapLiteralsOfEach_eq_map,
      List.map_congr_left inside]
  | not operand inside => rw [blanked, mapLiterals, inside]
  | case condition consequent alternative test left right =>
    rw [blanked, mapLiterals, test, left, right]
  | like value pattern inside => rw [blanked, mapLiterals, inside]

/-- Texts do not take part in typing. -/
theorem infer_blanked (input : Schema) (e : Expr) : e.blanked.infer input = e.infer input := by
  rw [blanked_eq_mapLiterals, infer_mapLiterals]

/-- An expression without its strings has the same type. -/
theorem typeInPlan_blanked (input : Schema) (e : Expr) :
    e.blanked.typeInPlan input = e.typeInPlan input := by
  rw [blanked_eq_mapLiterals, typeInPlan_mapLiterals]

end Expr

/-! ## Nodes -/

namespace Node

/-- A node that scans the table `t` if it scans any, with nothing in its texts and patterns. -/
def blanked : Node → Node
  | .scan _ columns => .scan "t" columns
  | .filter input predicate => .filter input predicate.blanked
  | .project input expressions => .project input (Expr.blankedEach expressions)
  | .join left right leftKey rightKey => .join left right leftKey rightKey
  | .aggregate input groupBy aggregates => .aggregate input groupBy aggregates

/-- A node without its strings has the same inputs. -/
theorem inputs_blanked (node : Node) : node.blanked.inputs = node.inputs := by
  cases node <;> rfl

/-- A blanked node has the row type of the node. -/
theorem resolve_blanked {node : Node} {earlier : List Schema} {schema : Schema}
    (resolved : node.resolve earlier = .ok schema) : node.blanked.resolve earlier = .ok schema := by
  cases node with
  | scan table columns =>
    obtain ⟨-, rest⟩ := resolve_scan_eq_ok_iff.1 resolved
    exact resolve_scan_eq_ok_iff.2 ⟨by decide, rest⟩
  | filter input predicate =>
    rw [resolve_filter_eq_ok_iff] at resolved
    rwa [blanked, resolve_filter_eq_ok_iff, Expr.typeInPlan_blanked]
  | project input expressions =>
    rw [resolve_project_eq_ok_iff] at resolved
    rw [blanked, Expr.blankedEach_eq_map, resolve_project_eq_ok_iff, List.forall₂_map_left_iff]
    simpa only [ne_eq, List.map_eq_nil_iff, Expr.typeInPlan_blanked] using resolved
  | join | aggregate => exact resolved

end Node

/-- Valid nodes stay valid without their strings, with the same schemas. -/
theorem resolveAll_map_blanked {earlier all : List Schema} {nodes : List Node}
    (resolved : resolveAll earlier nodes = .ok all) :
    resolveAll earlier (nodes.map Node.blanked) = .ok all := by
  induction nodes generalizing earlier with
  | nil => exact resolved
  | cons node rest ih =>
    obtain ⟨inputs, schema, found, later⟩ := resolveAll_cons_eq_ok_iff.1 resolved
    refine resolveAll_cons_eq_ok_iff.2 ⟨?_, schema, Node.resolve_blanked found, ih later⟩
    rwa [Node.checkInputs, Node.inputs_blanked]

/-- Blanked nodes form a plan if the nodes do. -/
theorem validate_map_blanked {nodes : List Node} {schemas : List Schema}
    (valid : validate nodes = .ok schemas) : validate (nodes.map Node.blanked) = .ok schemas := by
  obtain ⟨nonempty, resolved, consumed⟩ := validate_eq_ok_iff.1 valid
  refine validate_eq_ok_iff.2 ⟨by simpa using nonempty, resolveAll_map_blanked resolved, ?_⟩
  have consumers (position : Nat) :
      consumers (nodes.map Node.blanked) position = consumers nodes position := by
    rw [PlanCompiler.consumers, List.flatMap_map]
    simp only [Node.inputs_blanked]
    rfl
  simpa only [checkConsumers, consumers, List.length_map] using consumed

/-! ## Trees -/

namespace PlanTree

/-- A tree with blanked nodes. -/
def blanked : PlanTree → PlanTree
  | .scan site _ columns => .scan site "t" columns
  | .filter site predicate input => .filter site predicate.blanked input.blanked
  | .project site expressions input =>
    .project site (Expr.blankedEach expressions) input.blanked
  | .join site leftKey rightKey left right =>
    .join site leftKey rightKey left.blanked right.blanked
  | .aggregate site groupBy aggregates input => .aggregate site groupBy aggregates input.blanked

/-- A tree without its strings has the same schema. -/
theorem schema_blanked (tree : PlanTree) : tree.blanked.schema = tree.schema := by
  cases tree <;> rfl

/-- The tree of a node without its strings is the tree without them. -/
theorem ofNode?_blanked (earlier : List PlanTree) (node : Node) (schema : Schema) :
    ofNode? (earlier.map blanked) node.blanked schema =
      (ofNode? earlier node schema).map blanked := by
  cases node with
  | scan table columns => simp [ofNode?, Node.blanked, blanked]
  | filter input predicate =>
    cases found : earlier[input.toNat]? <;> simp [ofNode?, Node.blanked, blanked, found]
  | project input expressions =>
    cases found : earlier[input.toNat]? <;> simp [ofNode?, Node.blanked, blanked, found]
  | join left right leftKey rightKey =>
    cases foundLeft : earlier[left.toNat]? <;> cases foundRight : earlier[right.toNat]? <;>
      simp [ofNode?, Node.blanked, blanked, foundLeft, foundRight]
  | aggregate input groupBy aggregates =>
    cases found : earlier[input.toNat]? <;> simp [ofNode?, Node.blanked, blanked, found]

/-- The trees of nodes without their strings are the trees without them. -/
theorem ofNodes?_blanked (earlier : List PlanTree) (nodes : List Node) (schemas : List Schema) :
    ofNodes? (earlier.map blanked) ((nodes.map Node.blanked).zip schemas) =
      (ofNodes? earlier (nodes.zip schemas)).map blanked := by
  induction nodes generalizing earlier schemas with
  | nil => simp [ofNodes?]
  | cons node rest ih =>
    cases schemas with
    | nil => simp [ofNodes?]
    | cons schema schemas =>
      simp only [List.map_cons, List.zip_cons_cons, ofNodes?, ofNode?_blanked]
      cases ofNode? earlier node schema with
      | none => rfl
      | some tree => simpa using ih (earlier ++ [tree]) schemas

end PlanTree

/-! ## Plans -/

namespace Plan

/-- A plan with blanked nodes and without a directory of its tables. -/
def blanked (plan : Plan) : Plan where
  database := ""
  nodes := plan.nodes.map Node.blanked
  schemas := plan.schemas
  valid := validate_map_blanked plan.valid

/-- A plan without its strings has the same output. -/
theorem outputSchema_blanked (plan : Plan) : plan.blanked.outputSchema = plan.outputSchema := by
  simp [outputSchema, root, schema, blanked]

/-- The tree of a plan without its strings is the tree without them. -/
theorem tree_blanked (plan : Plan) : plan.blanked.tree = plan.tree.blanked := by
  have same := PlanTree.ofNodes?_blanked [] plan.nodes plan.schemas
  rw [← Option.some_inj, tree, tree, Option.some_get, ← Option.map_some, Option.some_get]
  exact same

/-- Plans are blanked to the same plan if their nodes are. -/
theorem blanked_eq_iff {p q : Plan} :
    p.blanked = q.blanked ↔ p.nodes.map Node.blanked = q.nodes.map Node.blanked :=
  ⟨congrArg nodes, fun same => ext_nodes rfl same⟩

end Plan

end PlanCompiler
