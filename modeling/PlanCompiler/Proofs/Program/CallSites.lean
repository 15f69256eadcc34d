import PlanCompiler.Proofs.Program.Quiet

/-!
# Call sites in programs

Only the division of integers can fault, so a program calls a function for it that records the
fault. It calls it once for each place where the plan divides integers.

## Main results

* `Plan.exists_generate_callSites`: the number of call sites of checked division.
-/

namespace PlanCompiler.Plan

/-- Every expression that may fault stands in the program exactly once, in both stages, with any
flags and any number of rows in a batch: as long as checks are not left out, the program calls the
function for checked division in as many places as the filters and projections of the plan divide
integers, whether their columns are read or not. Without checks it does not call it. -/
theorem exists_generate_callSites (plan : Plan) (request : Request) (vectorSize : Nat) :
    ∃ source, plan.generate request vectorSize = .ok source ∧
      callSites "kiln_idiv" source.text =
        if Program.isChecked request then plan.integerDivisions else 0 := by
  obtain ⟨program, lowered, -⟩ := plan.yields_program request vectorSize
  refine ⟨_, bind_eq_ok_iff.2 ⟨program, lowered, rfl⟩, ?_⟩
  have counted := plan.gives_haveSites_ownLines request vectorSize program lowered
  have behind : Lexeme.callSites divideWord false
      (Lexeme.scan .outside (Scope.linesText program.ownLines)) =
        plan.tree.checkedDivisions (Program.isChecked request) := by
    simpa [Lexeme.scan, Lexeme.callSites] using counted.callSites_linesText_append []
  -- the fixed part has no call sites, and the lines behind it are those of the plan
  rw [callSites, toList_of_spelled rfl, Program.toList_text]
  refine (program.callSites_preamble_append _).trans (behind.trans ?_)
  rw [PlanTree.checkedDivisions, plan.integerDivisions_tree]

end PlanCompiler.Plan
