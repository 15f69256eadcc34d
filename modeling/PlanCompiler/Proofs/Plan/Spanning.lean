import PlanCompiler.Proofs.Plan.Unfolding
import Mathlib.Data.List.Perm.Basic
import Mathlib.Data.List.Range

/-!
# Plans as spanning trees

Every node of a plan but the last is read exactly once, and only by later nodes. A traversal that
starts at the last node and goes on to what each node reads therefore comes to every node exactly
once, and the tree of the plan has every node at exactly one place.

## Main definitions

* `Plan.depthFirst`: the nodes that a node reads, directly or not, depth first;
* `PlanTree.tables`: the positions of the scans of a tree.

## Main results

* `Plan.depthFirst_root_perm`: from the root, every node is come to once;
* `Plan.positions_tree_perm`: the positions of the tree of a plan are those of its nodes;
* `Plan.exists_scan_of_mem_tables`: the scans of the tree are scans of the plan.
-/

namespace PlanCompiler

/-- If every number below a bound except the last one is listed by exactly one other, the list that
goes on from the last number to all that it lists has every number once. -/
theorem perm_range_of_inputs {n : Nat} {inputs reached : Nat → List Nat}
    (once : ((List.range (n + 1)).flatMap inputs).Perm (List.range n))
    (goesOn : ∀ k < n + 1, reached k = k :: (inputs k).flatMap reached) :
    (reached n).Perm (List.range (n + 1)) := by
  have all : (List.range (n + 1)).flatMap reached =
      (List.range (n + 1)).flatMap fun k => [k] ++ (inputs k).flatMap reached :=
    List.flatMap_congr fun k member => goesOn k (List.mem_range.1 member)
  have split : (List.range (n + 1)).flatMap reached =
      (List.range n).flatMap reached ++ reached n := by
    rw [List.range_succ, List.flatMap_append, List.flatMap_singleton]
  -- whatever is reached from the inputs is reached from the numbers below the last one
  have regrouped : ((List.range (n + 1)).flatMap reached).Perm
      (List.range (n + 1) ++ (List.range n).flatMap reached) := by
    rw [all]
    refine (List.flatMap_append_perm _ _ _).symm.trans (List.Perm.append ?_ ?_)
    · rw [List.flatMap_singleton']
    · rw [← List.flatMap_assoc]
      exact once.flatMap_right reached
  rw [split] at regrouped
  exact (List.perm_append_left_iff _).1 (regrouped.trans List.perm_append_comm)

/-- A list is looked at position by position. -/
theorem flatMap_eq_flatMap_range {α β : Type} (xs : List α) (f : α → List β) :
    xs.flatMap f = (List.range xs.length).flatMap fun k => (xs[k]?.map f).getD [] := by
  rw [List.flatMap_def, List.flatMap_def]
  refine congrArg _ (List.ext_getElem (by simp) fun k bound bound' => ?_)
  rw [List.length_map] at bound
  simp [bound]

/-- Positions of the scans. -/
def PlanTree.tables : PlanTree → List Nat
  | .scan site .. => [site.node]
  | .filter _ _ input | .project _ _ input | .aggregate _ _ _ input => input.tables
  | .join _ _ _ left right => left.tables ++ right.tables

/-- A check of all members succeeds exactly if each does. -/
theorem forM_eq_ok_iff {ε α : Type} {f : α → Except ε Unit} {xs : List α} :
    xs.forM f = .ok () ↔ ∀ x ∈ xs, f x = .ok () := by
  induction xs with
  | nil => exact ⟨fun _ => List.forall_mem_nil _, fun _ => rfl⟩
  | cons x xs ih =>
    show (f x >>= fun _ => xs.forM f) = .ok () ↔ _
    rw [bind_eq_ok_iff, List.forall_mem_cons]
    exact ⟨fun ⟨_, first, rest⟩ => ⟨first, ih.1 rest⟩, fun ⟨first, rest⟩ => ⟨(), first, ih.2 rest⟩⟩

/-- How often the nodes of a plan are read. -/
theorem consumers_of_checkConsumers {nodes : List Node} (passed : checkConsumers nodes = .ok ())
    {position : Nat} (bound : position < nodes.length) :
    consumers nodes position = if position + 1 = nodes.length then 0 else 1 := by
  have checked := forM_eq_ok_iff.1 passed position (List.mem_range.2 bound)
  dsimp only at checked
  split at checked
  -- the last node is the root, which nothing reads
  · rename_i root
    rw [if_pos root]
    split at checked
    · assumption
    · cases checked
  · rename_i inner
    rw [if_neg inner]
    split at checked
    · assumption
    · cases checked

namespace Plan

variable (plan : Plan)

/-- Every node but the last is read once. -/
theorem inputs_perm : ((plan.nodes.flatMap Node.inputs).map UInt32.toNat).Perm
    (List.range (plan.nodes.length - 1)) := by
  obtain ⟨nonempty, -, passed⟩ := validate_eq_ok_iff.1 plan.valid
  have positive : 0 < plan.nodes.length := List.length_pos_iff.2 nonempty
  have times (position : Nat) : ((plan.nodes.flatMap Node.inputs).map UInt32.toNat).count position =
      consumers plan.nodes position := by
    rw [List.count_eq_countP, List.countP_map]
    exact List.countP_congr fun input _ => by simp
  refine List.perm_iff_count.2 fun position => ?_
  rw [times, List.nodup_range.count]
  simp only [List.mem_range]
  by_cases bound : position < plan.nodes.length
  · rw [consumers_of_checkConsumers passed bound]
    split <;> split <;> omega
  · -- inputs are earlier nodes
    rw [if_neg (by omega), ← times, List.count_eq_zero_of_not_mem]
    intro member
    obtain ⟨input, someInput, rfl⟩ := List.mem_map.1 member
    obtain ⟨node, someNode, reads⟩ := List.mem_flatMap.1 someInput
    obtain ⟨k, found⟩ := List.mem_iff_getElem?.1 someNode
    have before := plan.lt_of_reads found input reads
    have inRange := (List.getElem?_eq_some_iff.1 found).1
    omega

/-- The nodes that a node reads, in the order it consumes them. -/
def inputs (k : Nat) : List Nat :=
  (plan.nodes[k]?.map fun node => node.inputs.map UInt32.toNat).getD []

/-- The inputs at a position are those of the node there. -/
theorem inputs_of_getElem? {k : Nat} {node : Node} (found : plan.nodes[k]? = some node) :
    plan.inputs k = node.inputs.map UInt32.toNat := by
  rw [inputs, found, Option.map_some, Option.getD_some]

/-- Every input stands in front of the node that reads it. -/
theorem lt_of_mem_inputs {k input : Nat} (reads : input ∈ plan.inputs k) : input < k := by
  cases found : plan.nodes[k]? with
  | none =>
    rw [inputs, found] at reads
    cases reads
  | some node =>
    rw [plan.inputs_of_getElem? found] at reads
    obtain ⟨position, member, rfl⟩ := List.mem_map.1 reads
    exact plan.lt_of_reads found position member

/-- A node and what is come to from it, following the inputs of each node in their order. -/
def depthFirst (k : Nat) : List Nat :=
  k :: (plan.inputs k).attach.flatMap fun ⟨input, _⟩ => depthFirst input
termination_by k
decreasing_by exact plan.lt_of_mem_inputs ‹_›

/-- The walk visits a node and then what its inputs lead to. -/
theorem depthFirst_eq (k : Nat) :
    plan.depthFirst k = k :: (plan.inputs k).flatMap plan.depthFirst := by
  rw [depthFirst, List.flatMap_subtype fun _ _ => rfl, List.unattach_attach]

/-- The walk from a node that is known visits it and then what its inputs lead to. -/
theorem depthFirst_of_getElem? {k : Nat} {node : Node} (found : plan.nodes[k]? = some node) :
    plan.depthFirst k = k :: (node.inputs.map UInt32.toNat).flatMap plan.depthFirst := by
  rw [depthFirst_eq, plan.inputs_of_getElem? found]

/-- From the root every node of a plan is come to exactly once. -/
theorem depthFirst_root_perm :
    (plan.depthFirst plan.root).Perm (List.range plan.nodes.length) := by
  have positive : 0 < plan.nodes.length := List.length_pos_iff.2 plan.nodes_ne_nil
  have size : plan.nodes.length = plan.root + 1 := (Nat.sub_add_cancel positive).symm
  have once : ((List.range (plan.root + 1)).flatMap plan.inputs).Perm (List.range plan.root) := by
    have perm := plan.inputs_perm
    rw [List.map_flatMap, flatMap_eq_flatMap_range, size] at perm
    exact perm
  rw [size]
  exact perm_range_of_inputs once fun k _ => plan.depthFirst_eq k

/-- A tree has its nodes in the order in which they are come to. -/
theorem Unfolds.positions_eq {k : Nat} {tree : PlanTree} (unfolds : plan.Unfolds k tree) :
    tree.positions = plan.depthFirst k := by
  induction unfolds with
  | scan found =>
    rw [plan.depthFirst_of_getElem? found]
    rfl
  | filter found _ ih | project found _ ih | aggregate found _ ih =>
    rw [PlanTree.positions, ih, plan.depthFirst_of_getElem? found]
    exact congrArg _ (List.flatMap_singleton _ _).symm
  | join found _ _ ihLeft ihRight =>
    rw [PlanTree.positions, ihLeft, ihRight, plan.depthFirst_of_getElem? found]
    exact congrArg _ (congrArg _ (List.append_nil _).symm)

/-- Every node of a plan stands at exactly one place of its tree. -/
theorem positions_tree_perm : plan.tree.positions.Perm (List.range plan.nodes.length) :=
  plan.unfolds_tree.positions_eq ▸ plan.depthFirst_root_perm

/-- No node occurs twice in the tree of a plan. -/
theorem nodup_positions_tree : plan.tree.positions.Nodup :=
  plan.positions_tree_perm.nodup_iff.2 List.nodup_range

/-- The tables of an unfolded tree are scans of the plan. -/
theorem Unfolds.exists_scan_of_mem_tables {k : Nat} {tree : PlanTree}
    (unfolds : plan.Unfolds k tree) {position : Nat} (member : position ∈ tree.tables) :
    ∃ table columns, plan.nodes[position]? = some (.scan table columns) := by
  induction unfolds with
  | @scan k table columns found =>
    obtain rfl := List.mem_singleton.1 member
    exact ⟨table, columns, found⟩
  | filter _ _ ih | project _ _ ih | aggregate _ _ ih => exact ih member
  | join _ _ _ ihLeft ihRight => exact (List.mem_append.1 member).elim ihLeft ihRight

/-- The scans of the tree of a plan are scans of the plan. -/
theorem exists_scan_of_mem_tables {position : Nat} (member : position ∈ plan.tree.tables) :
    ∃ table columns, plan.nodes[position]? = some (.scan table columns) :=
  plan.unfolds_tree.exists_scan_of_mem_tables plan member

end Plan

end PlanCompiler
