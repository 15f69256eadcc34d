import PlanCompiler.Plan.Basic

/-!
# Plans as trees

The nodes of a plan refer to each other by position. `Plan.tree` resolves these references, which
is possible since every input is an earlier node, and gives the root together with all that it
reads. Each operator of the tree keeps its position and its row type.
-/

namespace PlanCompiler

/-- Position and row type of an operator. -/
structure Site where
  /-- Position of the node in the plan. -/
  node : Nat
  /-- Types of the rows it yields. -/
  schema : Schema
deriving DecidableEq, Repr

/-- An operator with the operators that it reads. -/
inductive PlanTree where
  | scan (site : Site) (table : String) (columns : List ScanColumn)
  | filter (site : Site) (predicate : Expr) (input : PlanTree)
  | project (site : Site) (expressions : List Expr) (input : PlanTree)
  | join (site : Site) (leftKey rightKey : UInt32) (left right : PlanTree)
  | aggregate (site : Site) (groupBy : List UInt32) (aggregates : List Aggregate)
      (input : PlanTree)
deriving Repr

namespace PlanTree

/-- Position and row type of the root. -/
def site : PlanTree → Site
  | .scan site .. | .filter site .. | .project site .. | .join site .. | .aggregate site .. => site

/-- Row type of the root. -/
def schema (tree : PlanTree) : Schema := tree.site.schema

/-- Positions of all operators, each before those that it reads. -/
def positions : PlanTree → List Nat
  | .scan site .. => [site.node]
  | .filter site _ input | .project site _ input | .aggregate site _ _ input =>
    site.node :: input.positions
  | .join site _ _ left right => site.node :: (left.positions ++ right.positions)

/-- The tree of a node, given the trees of the nodes before it. -/
def ofNode? (earlier : List PlanTree) (node : Node) (schema : Schema) : Option PlanTree :=
  let site : Site := { node := earlier.length, schema }
  match node with
  | .scan table columns => some (.scan site table columns)
  | .filter input predicate => earlier[input.toNat]?.map (.filter site predicate)
  | .project input expressions => earlier[input.toNat]?.map (.project site expressions)
  | .join left right leftKey rightKey => do
    some (.join site leftKey rightKey (← earlier[left.toNat]?) (← earlier[right.toNat]?))
  | .aggregate input groupBy aggregates =>
    earlier[input.toNat]?.map (.aggregate site groupBy aggregates)

/-- The tree of the last of some nodes, given the trees of the nodes before them. -/
def ofNodes? (earlier : List PlanTree) : List (Node × Schema) → Option PlanTree
  | [] => earlier.getLast?
  | (node, schema) :: rest => do
    let tree ← ofNode? earlier node schema
    ofNodes? (earlier ++ [tree]) rest

/-- A node whose inputs are among the trees has one. -/
theorem isSome_ofNode? {earlier : List PlanTree} {node : Node} (schema : Schema)
    (h : node.checkInputs earlier.length = .ok ()) : (ofNode? earlier node schema).isSome := by
  have inRange : ∀ input ∈ node.inputs, input.toNat < earlier.length := by
    simp only [Node.checkInputs] at h
    split at h
    · simp at h
    · rename_i none
      simpa using List.find?_eq_none.1 none
  cases node <;> simp [Node.inputs] at inRange <;> simp [ofNode?, inRange]

/-- Valid nodes have a tree. -/
theorem isSome_ofNodes? {earlier : List PlanTree} (schemas : List Schema) {later : List Schema}
    {nodes : List Node} (h : resolveAll schemas nodes = .ok (schemas ++ later))
    (same : earlier.length = schemas.length) (nonempty : earlier ≠ [] ∨ nodes ≠ []) :
    (ofNodes? earlier (nodes.zip later)).isSome := by
  induction nodes generalizing earlier schemas later with
  | nil => simp_all [ofNodes?]
  | cons node rest ih =>
    obtain ⟨inputs, schema, -, h⟩ := resolveAll_cons_eq_ok_iff.1 h
    obtain ⟨more, split, -⟩ := exists_eq_append_of_resolveAll h
    obtain rfl : later = schema :: more := by simpa using split
    obtain ⟨tree, found⟩ := Option.isSome_iff_exists.1 (isSome_ofNode? schema (same ▸ inputs))
    simp only [List.zip_cons_cons, ofNodes?, found, Option.bind_eq_bind, Option.bind_some]
    exact ih (schemas ++ [schema]) (by simpa using h) (by simp [same]) (by simp)

end PlanTree

namespace Plan

/-- Every plan has a tree. -/
theorem isSome_tree (plan : Plan) :
    (PlanTree.ofNodes? [] (plan.nodes.zip plan.schemas)).isSome := by
  obtain ⟨nonempty, resolved, -⟩ := validate_eq_ok_iff.1 plan.valid
  exact PlanTree.isSome_ofNodes? [] resolved rfl (.inr nonempty)

/-- The root of a plan together with all that it reads. -/
def tree (plan : Plan) : PlanTree :=
  (PlanTree.ofNodes? [] (plan.nodes.zip plan.schemas)).get plan.isSome_tree

end Plan

end PlanCompiler
