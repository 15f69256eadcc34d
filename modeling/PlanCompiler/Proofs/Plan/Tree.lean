import PlanCompiler.Plan.Tree
import PlanCompiler.Proofs.Plan.Validity

/-!
# Well-typed trees

The row type of every operator of a plan's tree is the one that validation gives it over the row
types of the operators it reads.

## Main definitions

* `PlanTree.WellTyped`: the row types of a tree fit together.

## Main results

* `Plan.wellTyped_tree`: the tree of a plan is well typed.
-/

namespace PlanCompiler

namespace PlanTree

/-- Every operator has the row type that its own data and the row types of its inputs give. -/
def WellTyped : PlanTree → Prop
  | .scan site _ columns => site.schema = columns.map ScanColumn.type
  | .filter site predicate input =>
    input.WellTyped ∧ predicate.infer input.schema = .ok .bool ∧ site.schema = input.schema
  | .project site expressions input =>
    input.WellTyped ∧
      List.Forall₂ (fun e type => e.infer input.schema = .ok type) expressions site.schema
  | .join site leftKey rightKey left right =>
    left.WellTyped ∧ right.WellTyped ∧
      (∃ type, left.schema[leftKey.toNat]? = some type ∧
        right.schema[rightKey.toNat]? = some type) ∧
      site.schema = left.schema ++ right.schema
  | .aggregate site groupBy aggregates input =>
    input.WellTyped ∧ ∃ keys results,
      List.Forall₂ (fun column type => input.schema[column.toNat]? = some type) groupBy keys ∧
      List.Forall₂ (fun aggregate type => aggregate.resultType input.schema = .ok type)
        aggregates results ∧
      site.schema = keys ++ results

variable {earlier : List PlanTree} {schema : Schema} {tree : PlanTree}

/-- The schema of an input is that of its tree. -/
theorem getD_map_schema {input : UInt32} (found : earlier[input.toNat]? = some tree) :
    (earlier.map PlanTree.schema).getD input.toNat [] = tree.schema := by
  rw [List.getD_eq_getElem?_getD, List.getElem?_map, found]
  rfl

/-- A node with a row type over those of well-typed trees is the root of a well-typed tree. -/
theorem wellTyped_of_ofNode? {node : Node} (inputs : ∀ input ∈ earlier, input.WellTyped)
    (resolved : node.resolve (earlier.map PlanTree.schema) = .ok schema)
    (made : ofNode? earlier node schema = some tree) : tree.WellTyped ∧ tree.schema = schema := by
  -- the row types that validation looks up are the schemas of the trees at the same positions
  cases node with
  | scan table columns =>
    obtain rfl := Option.some.inj made
    obtain ⟨-, -, -, rfl⟩ := Node.resolve_scan_eq_ok_iff.1 resolved
    exact ⟨rfl, rfl⟩
  | filter position predicate =>
    obtain ⟨input, found, rfl⟩ := Option.map_eq_some_iff.1 made
    obtain ⟨typed, rfl⟩ := Node.resolve_filter_eq_ok_iff.1 resolved
    rw [getD_map_schema found] at typed ⊢
    exact ⟨⟨inputs input (List.mem_of_getElem? found), (Expr.typeInPlan_eq_ok_iff.1 typed).2, rfl⟩,
      rfl⟩
  | project position expressions =>
    obtain ⟨input, found, rfl⟩ := Option.map_eq_some_iff.1 made
    obtain ⟨-, typed⟩ := Node.resolve_project_eq_ok_iff.1 resolved
    rw [getD_map_schema found] at typed
    refine ⟨⟨inputs input (List.mem_of_getElem? found), ?_⟩, rfl⟩
    exact typed.imp fun _ _ typed => (Expr.typeInPlan_eq_ok_iff.1 typed).2
  | join leftPosition rightPosition leftKey rightKey =>
    simp only [ofNode?, Option.bind_eq_bind, Option.bind_eq_some_iff, Option.some.injEq] at made
    obtain ⟨left, foundLeft, right, foundRight, rfl⟩ := made
    obtain ⟨-, keys, rfl⟩ := Node.resolve_join_eq_ok_iff.1 resolved
    rw [getD_map_schema foundLeft, getD_map_schema foundRight] at *
    exact ⟨⟨inputs left (List.mem_of_getElem? foundLeft),
      inputs right (List.mem_of_getElem? foundRight), keys, rfl⟩, rfl⟩
  | aggregate position groupBy aggregates =>
    obtain ⟨input, found, rfl⟩ := Option.map_eq_some_iff.1 made
    obtain ⟨-, keys, results, grouped, summarised, rfl⟩ :=
      Node.resolve_aggregate_eq_ok_iff.1 resolved
    rw [getD_map_schema found] at grouped summarised
    exact ⟨⟨inputs input (List.mem_of_getElem? found), keys, results, grouped, summarised, rfl⟩,
      rfl⟩

/-- The tree of valid nodes is well typed. -/
theorem wellTyped_of_ofNodes? {nodes : List Node} {later : List Schema}
    (inputs : ∀ input ∈ earlier, input.WellTyped)
    (resolved : resolveAll (earlier.map PlanTree.schema) nodes =
      .ok (earlier.map PlanTree.schema ++ later))
    (made : ofNodes? earlier (nodes.zip later) = some tree) : tree.WellTyped := by
  induction nodes generalizing earlier later with
  -- the root is the last tree that was made
  | nil => exact inputs tree (List.mem_of_getLast? made)
  | cons node rest ih =>
    obtain ⟨-, schema, found, resolved⟩ := resolveAll_cons_eq_ok_iff.1 resolved
    -- the row type of this node is the first of those that are still to come
    obtain ⟨more, split, -⟩ := exists_eq_append_of_resolveAll resolved
    obtain rfl : later = schema :: more := by simpa using split
    simp only [List.zip_cons_cons, ofNodes?, Option.bind_eq_bind, Option.bind_eq_some_iff] at made
    obtain ⟨root, madeRoot, made⟩ := made
    obtain ⟨rootTyped, rfl⟩ := wellTyped_of_ofNode? inputs found madeRoot
    refine ih ?_ ?_ made
    · intro input member
      rcases List.mem_append.1 member with member | member
      · exact inputs input member
      · exact List.mem_singleton.1 member ▸ rootTyped
    · simpa using resolved

end PlanTree

/-- The tree of a plan is well typed. -/
theorem Plan.wellTyped_tree (plan : Plan) : plan.tree.WellTyped := by
  obtain ⟨-, resolved, -⟩ := validate_eq_ok_iff.1 plan.valid
  have made : PlanTree.ofNodes? [] (plan.nodes.zip plan.schemas) = some plan.tree :=
    (Option.some_get _).symm
  exact PlanTree.wellTyped_of_ofNodes? (List.forall_mem_nil _) resolved made

end PlanCompiler
