import PlanCompiler.Proofs.Lowering.Production.Batches
import PlanCompiler.Proofs.Lowering.Sections.Definitions
import PlanCompiler.Proofs.Lowering.Sections.Operators
import PlanCompiler.Proofs.Request

/-!
# Types and functions of a program

The records and loaders of the tables, the row printer, and the hash tables of the aggregations
are defined in front of the main function. They only depend on the plan, and on whether the rows
are printed at all: both stages define the same, in the same order. The two traversals of the tree
have different steps and different variables, and batches need more memory, but only grouped
aggregations contribute definitions, and both come to them from the root downwards and to the left
input of a join first.

## Main definitions

* `PlanTree.definitions`: what the aggregations of a tree define;
* `Plan.definitions`: what a plan defines.

## Main results

* `PlanTree.gives_definitions_rows`, `PlanTree.gives_definitions_batches`: both traversals;
* `Plan.gives_definitions_program`: the definitions of a program;
* `Plan.exists_programs_same_definitions`: the two stages share their definitions.
-/

namespace PlanCompiler

/-! ## Trees -/

namespace PlanTree

/-- What the aggregations of a tree define, from the root downwards. -/
def definitions : PlanTree → List Definition
  | .scan .. => []
  | .filter _ _ input | .project _ _ input => input.definitions
  | .join _ _ _ left right => left.definitions ++ right.definitions
  | .aggregate site groupBy aggregates input =>
    ((Groups.of site.node input.schema groupBy aggregates).toOption.map
      Groups.definitions).getD [] ++ input.definitions

/-- An aggregation that could be set up comes before its input. -/
theorem definitions_aggregate {site : Site} {groupBy : List UInt32} {aggregates : List Aggregate}
    {input : PlanTree} {groups : Groups}
    (found : Groups.of site.node input.schema groupBy aggregates = .ok groups) :
    (aggregate site groupBy aggregates input).definitions =
      groups.sections.definitions ++ input.definitions := by
  rw [definitions, found, Groups.definitions_sections]
  rfl

section

variable (checked : Bool)

/-- The pipelines of rows define what the aggregations do. -/
theorem gives_definitions_rows (tree : PlanTree) :
    Gives (tree.rows checked) fun pipeline => pipeline.sections.definitions = tree.definitions := by
  induction tree with
  | scan site table columns => exact .ok rfl
  | filter site predicate input ih =>
    refine ih.bind fun pipeline same => RowPipeline.gives_sections_filter.imp fun _ own => ?_
    rw [own, same, definitions]
  | project site expressions input ih =>
    refine ih.bind fun pipeline same => RowPipeline.gives_sections_project.imp fun _ own => ?_
    rw [own, same, definitions]
  | join site leftKey rightKey left right ihLeft ihRight =>
    refine .of_bind fun join => ihLeft.bind fun leftPipeline leftSame =>
      ihRight.bind fun rightPipeline rightSame =>
        RowPipeline.gives_sections_join.imp fun _ own => ?_
    simp [own, definitions, leftSame, rightSame, Join.definitions_sections]
  | aggregate site groupBy aggregates input ih =>
    refine Gives.bind (fun _ => id) fun groups found => ih.bind fun pipeline same =>
      RowPipeline.gives_sections_aggregate.imp fun _ own => ?_
    rw [definitions_aggregate found, ← same, own, Sections.definitions_append]

/-- The pipelines of batches define the same: what they need besides are variables. -/
theorem gives_definitions_batches (simd : Bool) (tree : PlanTree) :
    Gives (tree.batches checked simd) fun pipeline =>
      pipeline.sections.definitions = tree.definitions := by
  induction tree with
  | scan site table columns => exact .ok rfl
  | filter site predicate input ih =>
    refine ih.bind fun pipeline same => BatchPipeline.gives_sections_filter.imp fun _ own => ?_
    rw [own, Sections.definitions_append, Sections.definitions_vector, same, definitions,
      List.nil_append]
  | project site expressions input ih =>
    -- the columns of a projection are vectors, which need no definition
    refine ih.bind fun pipeline same => .of_bind fun types => .of_bind fun row => .ok ?_
    rw [Pipeline.extend, Sections.definitions_append,
      BatchPipeline.definitions_projectionSections, List.nil_append]
    exact same
  | join site leftKey rightKey left right ihLeft ihRight =>
    refine .of_bind fun join => ihLeft.bind fun leftPipeline leftSame =>
      ihRight.bind fun rightPipeline rightSame =>
        BatchPipeline.gives_sections_join.imp fun _ own => ?_
    simp [own, definitions, leftSame, rightSame, Join.definitions_sections,
      Join.definitions_outputSections]
  | aggregate site groupBy aggregates input ih =>
    refine Gives.bind (fun _ => id) fun groups found => ih.bind fun pipeline same => ?_
    rw [definitions_aggregate found, ← same]
    split
    · refine BatchPipeline.gives_sections_group.imp fun _ own => ?_
      rw [own, Sections.definitions_append, Sections.definitions_append,
        Sections.definitions_vector, List.append_nil]
    · refine BatchPipeline.gives_sections_summarise.imp fun _ own => ?_
      rw [own, Sections.definitions_append]

end

end PlanTree

/-! ## Programs -/

/-- The text of the definitions of a program. -/
def Program.definitionText (program : Program) : String :=
  String.join ((program.sections.definitions.flatMap Definition.lines).map Line.text)

/-- The definitions stand between the fixed part of a program and its main function. -/
theorem Program.text_eq (program : Program) :
    program.text = String.join (program.preamble.map Line.text) ++ program.definitionText ++
      String.join ((program.runMain ++ standaloneMain).map Line.text) := by
  simp only [text, lines, definitionText, List.map_append, String.join_append, List.append_assoc,
    String.append_assoc]

/-- A request has the stage and the flags that it was made with. -/
theorem Request.eq_of_ofFlags {stage : Stage} {flags : Flags} {request : Request}
    (made : Request.ofFlags stage flags = .ok request) :
    request.stage = stage ∧ request.flags = flags :=
  ofFlags_eq_ok_iff.1 made

namespace Plan

variable (plan : Plan)

/-- What a plan defines: tables in the order of the nodes, the row printer unless the rows are only
counted, and the hash tables of the aggregations. -/
def definitions (countOnly : Bool) : List Definition :=
  plan.tableSections.definitions ++
    (if countOnly then [] else [RowPrinter.definition plan.outputSchema]) ++
      plan.tree.definitions

/-- The definitions of a program do not depend on its stage. -/
theorem gives_definitions_program (request : Request) (vectorSize : Nat) :
    Gives (plan.program request vectorSize) fun program =>
      program.sections.definitions = plan.definitions (request.has .countOnly) := by
  rw [program]
  cases request.stage with
  | scalar =>
    refine Gives.bind (Q := fun lowered => lowered.1.definitions = _)
      ((PlanTree.gives_definitions_rows _ plan.tree).bind fun pipeline same => .ok ?_)
      fun lowered same => .ok same
    simp [definitions_printerSections, same, definitions]
  | vectorised =>
    refine Gives.bind (Q := fun lowered => lowered.1.definitions = _)
      ((PlanTree.gives_definitions_batches _ _ plan.tree).bind fun pipeline same => .ok ?_)
      fun lowered same => .ok same
    simp [definitions_printerSections, same, definitions]

/-- With the same flags, which both stages have to understand, and whatever the numbers of rows in
a batch, the programs of a plan in the two stages have the same types and functions in the same
order, and these are written in the same way, between the fixed part of each program and its main
function. -/
theorem exists_programs_same_definitions {flags : Flags} {scalar vectorised : Request}
    (scalarMade : Request.ofFlags .scalar flags = .ok scalar)
    (vectorisedMade : Request.ofFlags .vectorised flags = .ok vectorised)
    (scalarSize vectorisedSize : Nat) :
    ∃ rows batches : Program,
      plan.program scalar scalarSize = .ok rows ∧
      plan.program vectorised vectorisedSize = .ok batches ∧
      rows.sections.definitions = batches.sections.definitions ∧
      rows.definitionText = batches.definitionText ∧
      ∀ program ∈ [rows, batches], program.text =
        String.join (program.preamble.map Line.text) ++ program.definitionText ++
          String.join ((program.runMain ++ Program.standaloneMain).map Line.text) := by
  obtain ⟨rows, rowsMade, -, rowsDefine⟩ := (plan.yields_program scalar scalarSize).and
    (plan.gives_definitions_program scalar scalarSize)
  obtain ⟨batches, batchesMade, -, batchesDefine⟩ :=
    (plan.yields_program vectorised vectorisedSize).and
      (plan.gives_definitions_program vectorised vectorisedSize)
  -- the rows are counted in both programs or in neither
  have counted : scalar.has .countOnly = vectorised.has .countOnly := by
    rw [Request.has, Request.has, (Request.eq_of_ofFlags scalarMade).2,
      (Request.eq_of_ofFlags vectorisedMade).2]
  have same : rows.sections.definitions = batches.sections.definitions := by
    rw [rowsDefine, batchesDefine, counted]
  have sameText : rows.definitionText = batches.definitionText := by
    rw [Program.definitionText, same, Program.definitionText]
  exact ⟨rows, batches, rowsMade, batchesMade, same, sameText, fun program _ => program.text_eq⟩

/-- The plan of orders by name has loaders and a group table, and both its programs define the same.
-/
theorem exists_programs_same_definitions_ordersByName :
    ∃ scalar vectorised : Request,
      Request.ofFlags .scalar .profile = .ok scalar ∧
      Request.ofFlags .vectorised .profile = .ok vectorised ∧
      ∃ rows batches : Program,
        ordersByName.program scalar 1024 = .ok rows ∧
        ordersByName.program vectorised 4 = .ok batches ∧
        rows.sections.definitions = batches.sections.definitions ∧
        rows.definitionText = batches.definitionText ∧
        ∀ program ∈ [rows, batches], program.text =
          String.join (program.preamble.map Line.text) ++ program.definitionText ++
            String.join ((program.runMain ++ Program.standaloneMain).map Line.text) :=
  have scalarMade : Request.ofFlags .scalar .profile = .ok ⟨.scalar, .profile, by decide⟩ := by rfl
  have vectorisedMade :
      Request.ofFlags .vectorised .profile = .ok ⟨.vectorised, .profile, by decide⟩ := by rfl
  ⟨_, _, scalarMade, vectorisedMade,
    exists_programs_same_definitions ordersByName scalarMade vectorisedMade 1024 4⟩

end Plan

end PlanCompiler
