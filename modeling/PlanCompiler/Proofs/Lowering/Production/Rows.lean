import PlanCompiler.Proofs.Lowering.Assembly.Rows
import PlanCompiler.Proofs.Lowering.Pipelines
import PlanCompiler.Proofs.Lowering.Production.Basic

/-!
# Production of single rows

`Plan.produceRows` makes the rows of a node available to a consumer, one at a time.

## Main definitions

* `Plan.produceRows`: the producer of a node;
* `Plan.produceScalar`: the production of the result.

## Main results

* `Plan.realises_produceRows`: the producer of a node does what the pipeline of its tree says;
* `Plan.producesOnce_produceScalar`: the production of the result visits each node once.
-/

namespace PlanCompiler.Plan

/-- Produces the rows of a node, one at a time. -/
def produceRows (plan : Plan) (checked : Bool) (k : Nat) : Producer (List Value) :=
  plan.assembleRows Producer.assembly checked k

/-- The producer of a node does what the pipeline of its tree says. -/
theorem realises_produceRows {plan : Plan} {checked : Bool} {k : Nat} {tree : PlanTree}
    (unfolds : plan.Unfolds k tree) {pipeline : RowPipeline}
    (lowered : tree.rows checked = .ok pipeline) :
    (plan.produceRows checked k).Realises tree.visits pipeline :=
  realises_assembleRows Producer.isFaithful_assembly unfolds lowered

/-- Produces the result of a plan from single rows. -/
def produceScalar (plan : Plan) (checked countOnly : Bool) : Generator (List Statement) := do
  Generator.need (plan.tableSections ++ plan.printerSections countOnly)
  plan.produceRows checked plan.root fun row => return finishRow checked countOnly row

/-- The production from single rows visits each node once, and is what the plan is lowered to. -/
theorem producesOnce_produceScalar (plan : Plan) (checked countOnly : Bool) :
    plan.ProducesOnce (plan.produceScalar checked countOnly)
      (plan.lowerScalar checked countOnly) := by
  obtain ⟨pipeline, lowered, -⟩ := PlanTree.yields_rows checked plan.wellTyped_tree
  rw [lowerScalar, lowered]
  exact plan.producesOnce_of_realises (realises_produceRows plan.unfolds_tree lowered) _ _

end PlanCompiler.Plan
