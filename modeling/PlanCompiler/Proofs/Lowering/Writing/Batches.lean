import PlanCompiler.Proofs.Lowering.Assembly.Batches
import PlanCompiler.Proofs.Lowering.Writing.Rows

/-!
# Writing pipelines of batches

`Plan.writeBatches` writes the pipelines up to the place at which a batch of a node is at hand, and
closes their blocks behind it.

## Main definitions

* `Plan.writeBatches`: the emitter of a node;
* `Plan.writeVectorised`: writes all pipelines and their sections.

## Main results

* `Plan.realises_writeBatches`: the emitter of a node writes what the pipeline of its tree says;
* `Plan.exists_writeVectorised`: what is written is what the plan is lowered to.
-/

namespace PlanCompiler.Plan

open Writing (write body)

/-- Writes around the place at which a batch of a node is at hand. -/
def writeBatches (plan : Plan) (checked simd : Bool) (k : Nat) : Emitter Batch :=
  plan.assembleBatches Emitter.assembly checked simd k

/-- The emitter of a node writes what the pipeline of its tree says. -/
theorem realises_writeBatches {plan : Plan} {checked simd : Bool} {k : Nat} {tree : PlanTree}
    (unfolds : plan.Unfolds k tree) {pipeline : BatchPipeline}
    (lowered : tree.batches checked simd = .ok pipeline) :
    (plan.writeBatches checked simd k).Realises pipeline :=
  realises_assembleBatches Emitter.isFaithful_assembly unfolds lowered

/-- Writes all pipelines of batches and their sections. -/
def writeVectorised (plan : Plan) (checked countOnly simd : Bool) : Writing Unit := do
  write (plan.tableNeeds ++ plan.printerNeeds countOnly).script
  plan.writeBatches checked simd plan.root fun batch =>
    body (finishBatchEdits checked countOnly batch)

/-- Writing never fails, and what is written are the sections and the statements that the plan is
lowered to. -/
theorem exists_writeVectorised (plan : Plan) (checked countOnly simd : Bool) :
    ∃ sections statements,
      plan.lowerVectorised checked countOnly simd = .ok (sections, statements) ∧
      (plan.writeVectorised checked countOnly simd).run {} =
        .ok ((), sections.script ++ { body := Statement.editsOfAll statements }) := by
  obtain ⟨pipeline, lowered, -⟩ := PlanTree.yields_batches checked simd plan.wellTyped_tree
  rw [lowerVectorised, lowered]
  exact ⟨_, _, rfl, (realises_writeBatches plan.unfolds_tree lowered).run
    (plan.tableNeeds ++ plan.printerNeeds countOnly) (finishBatchPassage checked countOnly)⟩

end PlanCompiler.Plan
