import PlanCompiler.Plan.Tree
import PlanCompiler.Proofs.Outcome

/-!
# Unfolding plans

The tree of a plan is the list of its nodes, unfolded from the last one. `Plan.Unfolds` says this
node by node, with the row types that the plan has for them, so that what holds of a plan and of
its tree is shown by induction along the nodes that are read.

## Main definitions

* `Plan.Unfolds`: a tree is what a node of a plan reads.

## Main results

* `Plan.lt_of_reads`: the inputs of a node are earlier nodes;
* `Plan.unfolds_tree`: the root of a plan unfolds to its tree.
-/

namespace PlanCompiler

namespace PlanTree

variable {earlier : List PlanTree} {schema : Schema} {tree : PlanTree}

/-- The trees of all nodes, each made over those before it. -/
theorem exists_trees {entries : List (Node × Schema)}
    (made : ofNodes? earlier entries = some tree) :
    ∃ trees, trees.length = earlier.length + entries.length ∧ earlier <+: trees ∧
      trees.getLast? = some tree ∧ ∀ k node schema, entries[k]? = some (node, schema) →
        ofNode? (trees.take (earlier.length + k)) node schema = trees[earlier.length + k]? := by
  induction entries generalizing earlier with
  | nil => exact ⟨earlier, rfl, List.prefix_rfl, made, nofun⟩
  | cons entry rest ih =>
    obtain ⟨node, schema⟩ := entry
    simp only [ofNodes?, Option.bind_eq_bind, Option.bind_eq_some_iff] at made
    obtain ⟨root, madeRoot, made⟩ := made
    obtain ⟨trees, length, front, last, others⟩ := ih made
    have front' : earlier <+: trees := (List.prefix_append earlier [root]).trans front
    rw [List.length_append, List.length_singleton] at length others
    refine ⟨trees, by rw [length, List.length_cons]; omega, front', last, fun k => ?_⟩
    -- the first node is made over `earlier`, the others over `earlier` and the tree of the first
    cases k with
    | zero =>
      rintro node schema ⟨⟩
      obtain ⟨more, rfl⟩ := front
      rw [Nat.add_zero, List.append_assoc, List.take_left, madeRoot,
        List.getElem?_append_right (Nat.le_refl _)]
      simp
    | succ k =>
      have shift : earlier.length + (k + 1) = earlier.length + 1 + k := by omega
      rw [shift]
      exact others k

/-- A tree that was made only reads trees that were there. -/
theorem lt_of_ofNode? {node : Node} (made : ofNode? earlier node schema = some tree) :
    ∀ input ∈ node.inputs, input.toNat < earlier.length := by
  cases node with
  | scan => exact List.forall_mem_nil _
  | filter | project | aggregate =>
    obtain ⟨input, found, rfl⟩ := Option.map_eq_some_iff.1 made
    exact List.forall_mem_singleton.2 (List.getElem?_eq_some_iff.1 found).1
  | join leftPosition rightPosition leftKey rightKey =>
    simp only [ofNode?, Option.bind_eq_bind, Option.bind_eq_some_iff] at made
    obtain ⟨left, foundLeft, right, foundRight, -⟩ := made
    exact List.forall_mem_cons.2 ⟨(List.getElem?_eq_some_iff.1 foundLeft).1,
      List.forall_mem_singleton.2 (List.getElem?_eq_some_iff.1 foundRight).1⟩

end PlanTree

namespace Plan

variable (plan : Plan)

/-- Every node of a plan has a schema. -/
theorem length_schemas : plan.schemas.length = plan.nodes.length := by
  obtain ⟨-, resolved, -⟩ := validate_eq_ok_iff.1 plan.valid
  obtain ⟨later, same, length⟩ := exists_eq_append_of_resolveAll resolved
  rw [same, List.nil_append, length]

/-- The trees of all nodes of a plan. -/
theorem exists_trees : ∃ trees : List PlanTree, trees.length = plan.nodes.length ∧
    trees.getLast? = some plan.tree ∧ ∀ k node, plan.nodes[k]? = some node →
      PlanTree.ofNode? (trees.take k) node (plan.schema k) = trees[k]? := by
  have made : PlanTree.ofNodes? [] (plan.nodes.zip plan.schemas) = some plan.tree :=
    (Option.some_get _).symm
  obtain ⟨trees, length, -, last, others⟩ := PlanTree.exists_trees made
  refine ⟨trees, ?_, last, fun k node found => ?_⟩
  · rw [length, List.length_nil, Nat.zero_add, List.length_zip, plan.length_schemas, Nat.min_self]
  · have bound : k < plan.schemas.length :=
      plan.length_schemas.symm ▸ (List.getElem?_eq_some_iff.1 found).1
    have typed : plan.schemas[k]? = some (plan.schema k) := by
      rw [schema, List.getD_eq_getElem?_getD, List.getElem?_eq_getElem bound, Option.getD_some]
    have entry := others k node _ (List.getElem?_zip_eq_some.2 ⟨found, typed⟩)
    rwa [List.length_nil, Nat.zero_add] at entry

/-- The inputs of a node are earlier nodes. -/
theorem lt_of_reads {k : Nat} {node : Node} (found : plan.nodes[k]? = some node) :
    ∀ input ∈ node.inputs, input.toNat < k := by
  obtain ⟨trees, length, -, made⟩ := plan.exists_trees
  have bound : k < trees.length := length ▸ (List.getElem?_eq_some_iff.1 found).1
  intro input reads
  have earlier :=
    PlanTree.lt_of_ofNode? ((made k node found).trans (List.getElem?_eq_getElem bound))
    input reads
  rw [List.length_take] at earlier
  omega

/-- A node of a plan, with all that it reads, is a tree. -/
inductive Unfolds : Nat → PlanTree → Prop where
  | scan {k : Nat} {table : String} {columns : List ScanColumn}
      (found : plan.nodes[k]? = some (.scan table columns)) :
    Unfolds k (.scan ⟨k, plan.schema k⟩ table columns)
  | filter {k : Nat} {position : UInt32} {predicate : Expr} {input : PlanTree}
      (found : plan.nodes[k]? = some (.filter position predicate))
      (unfolds : Unfolds position.toNat input) :
    Unfolds k (.filter ⟨k, plan.schema k⟩ predicate input)
  | project {k : Nat} {position : UInt32} {expressions : List Expr} {input : PlanTree}
      (found : plan.nodes[k]? = some (.project position expressions))
      (unfolds : Unfolds position.toNat input) :
    Unfolds k (.project ⟨k, plan.schema k⟩ expressions input)
  | join {k : Nat} {leftPosition rightPosition leftKey rightKey : UInt32} {left right : PlanTree}
      (found : plan.nodes[k]? = some (.join leftPosition rightPosition leftKey rightKey))
      (unfoldsLeft : Unfolds leftPosition.toNat left)
      (unfoldsRight : Unfolds rightPosition.toNat right) :
    Unfolds k (.join ⟨k, plan.schema k⟩ leftKey rightKey left right)
  | aggregate {k : Nat} {position : UInt32} {groupBy : List UInt32} {aggregates : List Aggregate}
      {input : PlanTree} (found : plan.nodes[k]? = some (.aggregate position groupBy aggregates))
      (unfolds : Unfolds position.toNat input) :
    Unfolds k (.aggregate ⟨k, plan.schema k⟩ groupBy aggregates input)

/-- The row type of a tree is the one that the plan has for the node. -/
theorem Unfolds.schema_eq {k : Nat} {tree : PlanTree} (unfolds : plan.Unfolds k tree) :
    tree.schema = plan.schema k := by
  cases unfolds <;> rfl

/-- A tree that was made for a node is what the node unfolds to, if this is so for its inputs. -/
theorem unfolds_of_ofNode? {earlier : List PlanTree} {node : Node} {tree : PlanTree}
    (found : plan.nodes[earlier.length]? = some node)
    (inputs : ∀ (position : UInt32) (input : PlanTree), earlier[position.toNat]? = some input →
      plan.Unfolds position.toNat input)
    (made : PlanTree.ofNode? earlier node (plan.schema earlier.length) = some tree) :
    plan.Unfolds earlier.length tree := by
  -- each input was built before, and it is the tree below the position that is named
  cases node with
  | scan =>
    obtain rfl := Option.some.inj made
    exact .scan found
  | filter position =>
    obtain ⟨input, foundInput, rfl⟩ := Option.map_eq_some_iff.1 made
    exact .filter found (inputs position input foundInput)
  | project position =>
    obtain ⟨input, foundInput, rfl⟩ := Option.map_eq_some_iff.1 made
    exact .project found (inputs position input foundInput)
  | join leftPosition rightPosition =>
    simp only [PlanTree.ofNode?, Option.bind_eq_bind, Option.bind_eq_some_iff,
      Option.some.injEq] at made
    obtain ⟨left, foundLeft, right, foundRight, rfl⟩ := made
    exact .join found (inputs leftPosition left foundLeft) (inputs rightPosition right foundRight)
  | aggregate position =>
    obtain ⟨input, foundInput, rfl⟩ := Option.map_eq_some_iff.1 made
    exact .aggregate found (inputs position input foundInput)

/-- The root of a plan unfolds to its tree. -/
theorem unfolds_tree : plan.Unfolds plan.root plan.tree := by
  obtain ⟨trees, length, last, made⟩ := plan.exists_trees
  -- by strong induction: the inputs of a node stand in front of it
  have each : ∀ (k : Nat) (tree : PlanTree), trees[k]? = some tree → plan.Unfolds k tree := by
    intro k
    induction k using Nat.strongRecOn with
    | ind k ih =>
      intro tree foundTree
      have bound : k < plan.nodes.length := length ▸ (List.getElem?_eq_some_iff.1 foundTree).1
      have before : (trees.take k).length = k := by
        rw [List.length_take]
        omega
      have found : plan.nodes[(trees.take k).length]? = some plan.nodes[k] := by
        rw [before, List.getElem?_eq_getElem bound]
      have madeTree := (made k _ (List.getElem?_eq_getElem bound)).trans foundTree
      refine before ▸ plan.unfolds_of_ofNode? found (fun position input foundInput => ?_)
        (before.symm ▸ madeTree)
      have earlier : position.toNat < k := before ▸ (List.getElem?_eq_some_iff.1 foundInput).1
      rw [List.getElem?_take_of_lt earlier] at foundInput
      exact ih _ earlier input foundInput
  rw [List.getLast?_eq_getElem?, length] at last
  exact each plan.root plan.tree last

end Plan

end PlanCompiler
