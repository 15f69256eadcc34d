import PlanCompiler.Proofs.Lowering.Assembly.Rows
import PlanCompiler.Proofs.Lowering.Pipelines
import PlanCompiler.Proofs.Lowering.Writing.Basic

/-!
# Writing pipelines of single rows

`Plan.writeRows` writes the pipelines up to the place at which a row of a node is at hand, and
closes their blocks behind it.

## Main definitions

* `Plan.writeRows`: the emitter of a node;
* `Plan.writeScalar`: writes all pipelines and their sections.

## Main results

* `Plan.realises_writeRows`: the emitter of a node writes what the pipeline of its tree says;
* `Plan.exists_writeScalar`: what is written is what the plan is lowered to.
-/

namespace PlanCompiler.Plan

open Writing (write body)

/-- Writes around the place at which a row of a node is at hand. -/
def writeRows (plan : Plan) (checked : Bool) (k : Nat) : Emitter (List Value) :=
  plan.assembleRows Emitter.assembly checked k

/-- The emitter of a node writes what the pipeline of its tree says. -/
theorem realises_writeRows {plan : Plan} {checked : Bool} {k : Nat} {tree : PlanTree}
    (unfolds : plan.Unfolds k tree) {pipeline : RowPipeline}
    (lowered : tree.rows checked = .ok pipeline) : (plan.writeRows checked k).Realises pipeline :=
  realises_assembleRows Emitter.isFaithful_assembly unfolds lowered

/-- Writes all pipelines of single rows and their sections. -/
def writeScalar (plan : Plan) (checked countOnly : Bool) : Writing Unit := do
  write (plan.tableNeeds ++ plan.printerNeeds countOnly).script
  plan.writeRows checked plan.root fun row => body (finishRowEdits checked countOnly row)

/-- Writing never fails, and what is written are the sections and the statements that the plan is
lowered to. -/
theorem exists_writeScalar (plan : Plan) (checked countOnly : Bool) :
    ∃ sections statements, plan.lowerScalar checked countOnly = .ok (sections, statements) ∧
      (plan.writeScalar checked countOnly).run {} =
        .ok ((), sections.script ++ { body := Statement.editsOfAll statements }) := by
  obtain ⟨pipeline, lowered, -⟩ := PlanTree.yields_rows checked plan.wellTyped_tree
  rw [lowerScalar, lowered]
  exact ⟨_, _, rfl, (realises_writeRows plan.unfolds_tree lowered).run
    (plan.tableNeeds ++ plan.printerNeeds countOnly) (finishRowPassage checked countOnly)⟩

end PlanCompiler.Plan
