import PlanCompiler.Proofs.Lowering.Assembly.Batches
import PlanCompiler.Proofs.Lowering.Production.Rows

/-!
# Production of batches

`Plan.produceBatches` makes the rows of a node available to a consumer in batches. Together with
`Plan.produceRows` this is what both stages do: each of them comes to every node of a plan once.

## Main definitions

* `Plan.produceBatches`: the producer of a node;
* `Plan.produceVectorised`: the production of the result.

## Main results

* `Plan.realises_produceBatches`: the producer of a node does what the pipeline of its tree says;
* `Plan.each_node_once`: traversal and production come to each node of an accepted plan once.
-/

namespace PlanCompiler

namespace Plan

/-- Produces the rows of a node in batches. -/
def produceBatches (plan : Plan) (checked simd : Bool) (k : Nat) : Producer Batch :=
  plan.assembleBatches Producer.assembly checked simd k

/-- The producer of a node does what the pipeline of its tree says. -/
theorem realises_produceBatches {plan : Plan} {checked simd : Bool} {k : Nat} {tree : PlanTree}
    (unfolds : plan.Unfolds k tree) {pipeline : BatchPipeline}
    (lowered : tree.batches checked simd = .ok pipeline) :
    (plan.produceBatches checked simd k).Realises tree.visits pipeline :=
  realises_assembleBatches Producer.isFaithful_assembly unfolds lowered

/-- Produces the result of a plan from batches. -/
def produceVectorised (plan : Plan) (checked countOnly simd : Bool) :
    Generator (List Statement) := do
  Generator.need (plan.tableSections ++ plan.printerSections countOnly)
  plan.produceBatches checked simd plan.root fun batch =>
    return finishBatch checked countOnly batch

/-- The production from batches visits each node once, and is what the plan is lowered to. -/
theorem producesOnce_produceVectorised (plan : Plan) (checked countOnly simd : Bool) :
    plan.ProducesOnce (plan.produceVectorised checked countOnly simd)
      (plan.lowerVectorised checked countOnly simd) := by
  obtain ⟨pipeline, lowered, -⟩ := PlanTree.yields_batches checked simd plan.wellTyped_tree
  rw [lowerVectorised, lowered]
  exact plan.producesOnce_of_realises (realises_produceBatches plan.unfolds_tree lowered) _ _

/-- If a list of nodes is accepted as a plan, then a depth-first traversal from the last node, by
the inputs of each, comes to every node of the list exactly once. So does the production of the
result in both stages: it asks each node for its rows once, and each node calls its consumer
once. -/
theorem each_node_once {database : String} {nodes : List Node} {plan : Plan}
    (accepted : Plan.ofNodes database nodes = .ok plan) :
    plan.nodes = nodes ∧
      (plan.depthFirst (nodes.length - 1)).Perm (List.range nodes.length) ∧
      (∀ checked countOnly, plan.ProducesOnce (plan.produceScalar checked countOnly)
        (plan.lowerScalar checked countOnly)) ∧
      ∀ checked countOnly simd, plan.ProducesOnce (plan.produceVectorised checked countOnly simd)
        (plan.lowerVectorised checked countOnly simd) := by
  obtain ⟨-, rfl⟩ := ofNodes_eq_ok_iff.1 accepted
  exact ⟨rfl, plan.depthFirst_root_perm, plan.producesOnce_produceScalar,
    plan.producesOnce_produceVectorised⟩

/-- The number of orders per name of a customer: a plan with two scans and a join. -/
def ordersByName : Plan where
  database := "/data"
  nodes :=
    [.scan "customers" [⟨0, .int⟩, ⟨1, .text⟩],
      .scan "orders" [⟨1, .int⟩, ⟨2, .float⟩],
      .filter 1 (.binary .gt (.column 1) (.float ⟨0x4058C00000000000⟩)),
      .join 0 2 0 0,
      .aggregate 3 [1] [.count]]
  schemas :=
    [[.int, .text], [.int, .float], [.int, .float], [.int, .text, .int, .float], [.text, .int]]
  valid := by rfl

/-- The five nodes of the plan of orders by name are produced once each. -/
theorem each_node_once_ordersByName :
    Plan.ofNodes "/data" ordersByName.nodes = .ok ordersByName ∧
      (ordersByName.depthFirst 4).Perm [0, 1, 2, 3, 4] ∧
      ordersByName.ProducesOnce (ordersByName.produceScalar true false)
        (ordersByName.lowerScalar true false) ∧
      ordersByName.ProducesOnce (ordersByName.produceVectorised true false true)
        (ordersByName.lowerVectorised true false true) :=
  have accepted : Plan.ofNodes "/data" ordersByName.nodes = .ok ordersByName :=
    ofNodes_eq_ok_iff.2 ⟨rfl, rfl⟩
  have ⟨_, traversed, rows, batches⟩ := each_node_once accepted
  ⟨accepted, traversed, rows true false, batches true false true⟩

end Plan

end PlanCompiler
