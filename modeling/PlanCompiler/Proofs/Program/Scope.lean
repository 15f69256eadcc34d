import PlanCompiler.Program.Basic
import PlanCompiler.Proofs.Lowering.Scope.Batches
import PlanCompiler.Proofs.Program.Declarations

/-!
# Scopes of the main function

The variables at the top of `run_main` and the statements of the pipelines are read line by line.
Every variable of a node that the pipelines mention has been declared before, at the top or in a
block that is still open, and no scope declares a variable twice.

## Main results

* `Plan.exists_read_program`: the lines of a program are read without a complaint.
-/

namespace PlanCompiler

open Code Scope

namespace Program

/-- The lines that declare the variables of the operators. -/
def declarationLines (program : Program) : List Line :=
  program.sections.declarations.map Declaration.line

/-- The lines of the pipelines. -/
def bodyLines (program : Program) : List Line := Statement.linesOfAll 1 program.body

/-- Where these lines stand. -/
theorem exists_runMain (program : Program) : ∃ before between after, program.runMain =
    before ++ program.declarationLines ++ between ++ program.bodyLines ++ after := by
  let before := Support.plainLines ["int " ++ entryPoint ++ "(int argc, char **argv)", "\x7b"] ++
    Statement.linesOfAll 1 program.standardVariables
  let between := [.blank] ++ Statement.linesOfAll 1 program.start ++ [.blank]
  let after := [.blank] ++ Statement.linesOfAll 1 program.finish ++
    Support.plainLines ["kiln_done:"] ++ Statement.linesOfAll 1 program.cleanup ++
      Support.plainLines ["\x7d", ""]
  refine ⟨before, between, after, ?_⟩
  simp only [runMain, declarationLines, bodyLines, before, between, after, List.append_assoc]

end Program

namespace Plan

variable (plan : Plan) (request : Request) (vectorSize : Nat)

/-- The variables at the top of a program are distinct, and their pointers are released. -/
theorem gives_isTidy_program :
    Gives (plan.program request vectorSize) fun program =>
      program.sections.IsTidy fun _ => True := by
  rw [program]
  cases request.stage with
  | scalar => exact (plan.gives_isTidy_lowerScalar _ _).bind fun _ tidy => .ok tidy
  | vectorised => exact (plan.gives_isTidy_lowerVectorised _ _ _).bind fun _ tidy => .ok tidy

/-- The body of a program is read where its own variables are declared. -/
theorem gives_reads_program (base : List Name) :
    Gives (plan.program request vectorSize) fun program =>
      program.sections.IsVisible base → Reads program.body [base] [base] := by
  rw [program]
  cases request.stage with
  | scalar => exact (plan.gives_reads_lowerScalar _ _ base).bind fun _ reads => .ok reads
  | vectorised => exact (plan.gives_reads_lowerVectorised _ _ _ base).bind fun _ reads => .ok reads

/-- Every variable of a node that the pipelines of a program mention is declared at the top or on an
earlier line of a block that is still open, no scope declares a variable twice, and all blocks are
closed in the end. -/
theorem exists_read_program :
    ∃ program, plan.program request vectorSize = .ok program ∧
      (∃ before between after, program.runMain =
        before ++ program.declarationLines ++ between ++ program.bodyLines ++ after) ∧
      Scope.read [[]] (linesText (program.declarationLines ++ program.bodyLines)) =
        some [(program.sections.names.map fun name => name.text.toList).reverse] := by
  obtain ⟨program, made, -⟩ := plan.yields_program request vectorSize
  have tidy := plan.gives_isTidy_program request vectorSize program made
  have reads := plan.gives_reads_program request vectorSize program.sections.names.reverse
    program made tidy.isVisible
  refine ⟨program, made, program.exists_runMain, ?_⟩
  have all := tidy.reads_declarations.append (reads 1) []
  rw [List.append_nil] at all
  refine all.trans ?_
  rw [← List.map_reverse]
  rfl

end Plan

end PlanCompiler
