import PlanCompiler.Proofs.Lowering.Writing.Batches
import PlanCompiler.Proofs.Program.Usage

/-!
# The blocks of a program

While a plan is lowered, the sections of its program are written line by line. No block is closed
that is not open, although nothing would be noticed if it were, and all blocks are closed when the
sections are put together.

## Main definitions

* `Plan.write`: writes the sections of a program;
* `Program.IsWrittenBy`: edits that write the sections of a program.

## Main results

* `Plan.exists_program_isWrittenBy`: what is written for a plan are the sections of its program,
  with as many blocks closed as opened.
-/

namespace PlanCompiler

open Block (Completes Writes)

/-! ## Blocks without an alternative -/

namespace Statement

variable {v : Vocabulary}

mutual

/-- There is no block with an alternative outside of the fixed part. -/
theorem IsWithin.isUnbranched {statement : Statement} (within : statement.IsWithin v) :
    statement.IsUnbranched := by
  cases statement with
  | blank | line | control | continued | declare =>
    rw [IsUnbranched]
    trivial
  | block head body =>
    rw [IsWithin] at within
    rw [IsUnbranched]
    exact AllIsWithin.allIsUnbranched within.2
  | branch =>
    rw [IsWithin] at within
    exact within.elim

/-- Statements within a vocabulary have no alternatives. -/
theorem AllIsWithin.allIsUnbranched {statements : List Statement}
    (within : AllIsWithin v statements) : AllIsUnbranched statements := by
  cases statements with
  | nil =>
    rw [AllIsUnbranched]
    trivial
  | cons first rest =>
    rw [AllIsWithin] at within
    rw [AllIsUnbranched]
    exact ⟨IsWithin.isUnbranched within.1, AllIsWithin.allIsUnbranched within.2⟩

end

end Statement

/-- A loader has no alternatives. -/
theorem Table.isUnbranched_loader (node : Nat) (table : String) (columns : List ScanColumn) :
    (loader node table columns).IsUnbranched := by
  have field (column : ScanColumn) (position : Nat) : (readField column position).IsUnbranched := by
    rw [readField]
    split <;> simp
  simp [loader, Definition.IsUnbranched, load, readRow, growRows, field]

/-- The row printer has no alternatives. -/
theorem RowPrinter.isUnbranched_definition (schema : Schema) :
    (definition schema).IsUnbranched := by
  have separator (k : Nat) : AllOf Statement.IsUnbranched
      (if k = 0 then [] else [.line "fputs(\", \", out);"]) := .ite .nil (by simp)
  simp [definition, Definition.IsUnbranched, body, separator]

/-- The functions of a group table have no alternatives. -/
theorem Groups.isUnbranched_definitions (groups : Groups) :
    AllOf Definition.IsUnbranched groups.definitions := by
  refine .ite ?_ .nil
  simp [recordType, hashFunction, growFunction, findFunction, Definition.IsUnbranched]

/-- The definitions of a tree have no alternatives. -/
theorem PlanTree.isUnbranched_definitions (tree : PlanTree) :
    AllOf Definition.IsUnbranched tree.definitions := by
  induction tree with
  | scan => exact .nil
  | filter _ _ _ ih | project _ _ _ ih => exact ih
  | join _ _ _ _ _ ihLeft ihRight => exact AllOf.append_iff.2 ⟨ihLeft, ihRight⟩
  | aggregate site groupBy aggregates input ih =>
    refine AllOf.append_iff.2 ⟨?_, ih⟩
    cases Groups.of site.node input.schema groupBy aggregates with
    | error => exact .nil
    | ok groups => exact groups.isUnbranched_definitions

/-- The definitions of a plan have no alternatives. -/
theorem Plan.isUnbranched_definitions (plan : Plan) (countOnly : Bool) :
    AllOf Definition.IsUnbranched (plan.definitions countOnly) := by
  have tables : AllOf Definition.IsUnbranched plan.tableSections.definitions := by
    rw [tableSections, Sections.definitions_concat, List.flatMap_map, AllOf.flatMap_iff]
    rintro ⟨node, k⟩ -
    cases node with
    | scan table columns =>
      exact AllOf.cons_iff.2 ⟨trivial, AllOf.cons_iff.2 ⟨Table.isUnbranched_loader k table columns,
        .nil⟩⟩
    | filter | project | join | aggregate => exact .nil
  have printer : AllOf Definition.IsUnbranched
      (if countOnly then [] else [RowPrinter.definition plan.outputSchema]) :=
    .ite .nil (AllOf.cons_iff.2 ⟨RowPrinter.isUnbranched_definition _, .nil⟩)
  rw [definitions, AllOf.append_iff, AllOf.append_iff]
  exact ⟨⟨tables, printer⟩, plan.tree.isUnbranched_definitions⟩

/-! ## Sections -/

namespace Program

/-- The sections of a program are what some edits write, each from the indentation on that it starts
with: definitions at none, and everything in the main function at one. -/
structure IsWrittenBy (program : Program) (script : Script) : Prop where
  /-- The definitions. -/
  globals : Completes 0 script.globals (program.sections.definitions.flatMap Definition.lines)
  /-- The variables at the top of the main function. -/
  decls : Completes 1 script.decls (program.sections.declarations.map Declaration.line)
  /-- What runs before the pipelines. -/
  setup : Completes 1 script.setup (Statement.linesOfAll 1 program.sections.setup)
  /-- The pipelines. -/
  body : Completes 1 script.body (Statement.linesOfAll 1 program.body)
  /-- What releases memory in the end. -/
  cleanup : Completes 1 script.cleanup
    (Statement.linesOfAll 1 (program.sections.released.map fun place =>
      .line ("free(" ++ place ++ ");")))

variable (program : Program)

/-- The edits that write the sections of a program. -/
def script : Script :=
  { program.sections.script with body := Statement.editsOfAll program.body }

/-- A program without alternatives is written by its script. -/
theorem isWrittenBy_script
    (definitions : AllOf Definition.IsUnbranched program.sections.definitions)
    (setup : AllOf Statement.IsUnbranched program.sections.setup)
    (body : AllOf Statement.IsUnbranched program.body) : program.IsWrittenBy program.script where
  globals := Writes.completes <| .flatMap fun definition member =>
    Definition.writes_edits (definitions definition member)
  decls := by
    refine Writes.completes (.map fun declaration _ => ?_)
    have line : Writes 1 1 [.line 0 declaration.line.code]
        [{ indent := 1, code := declaration.line.code }] := .line 0 _
    cases declaration <;> exact line
  setup := (Statement.writes_editsOfAll (Nat.le_refl 1) setup).completes
  body := (Statement.writes_editsOfAll (Nat.le_refl 1) body).completes
  cleanup := Writes.completes <| Statement.writes_editsOfAll (Nat.le_refl 1) <|
    AllOf.map_iff.2 fun place _ => Statement.isUnbranched_line _

end Program

namespace Plan

variable (plan : Plan) (request : Request) (vectorSize : Nat)

/-- Writes the sections of the program for a request. -/
def write : Writing Unit :=
  match request.stage with
  | .scalar => plan.writeScalar (Program.isChecked request) (request.has .countOnly)
  | .vectorised =>
    plan.writeVectorised (Program.isChecked request) (request.has .countOnly)
      (request.has .simdHints)

/-- What is written are the sections of the program, and writing never fails. -/
theorem exists_program_write :
    ∃ program, plan.program request vectorSize = .ok program ∧
      (plan.write request).run {} = .ok ((), program.script) := by
  rw [program, write]
  simp only [Program.script, ← Sections.script_append_body]
  cases request.stage with
  | scalar =>
    obtain ⟨sections, statements, lowered, written⟩ :=
      plan.exists_writeScalar (Program.isChecked request) (request.has .countOnly)
    exact ⟨_, bind_eq_ok_iff.2 ⟨_, lowered, rfl⟩, written⟩
  | vectorised =>
    obtain ⟨sections, statements, lowered, written⟩ :=
      plan.exists_writeVectorised (Program.isChecked request) (request.has .countOnly)
        (request.has .simdHints)
    exact ⟨_, bind_eq_ok_iff.2 ⟨_, lowered, rfl⟩, written⟩

/-- Whatever the plan, the request and the number of rows in a batch, the sections of a program are
written without closing a block that is not open, in any section and at any time. In the end each
section has as many blocks closed as opened, and the indentation that it started with. -/
theorem exists_program_isWrittenBy :
    ∃ program script, plan.program request vectorSize = .ok program ∧
      (plan.write request).run {} = .ok ((), script) ∧ program.IsWrittenBy script := by
  obtain ⟨program, lowered, written⟩ := plan.exists_program_write request vectorSize
  obtain ⟨-, sections, body⟩ := plan.gives_isWithin_program request vectorSize program lowered
  have defined := plan.gives_definitions_program request vectorSize program lowered
  refine ⟨program, _, lowered, written, program.isWrittenBy_script ?_ ?_ ?_⟩
  · rw [defined]
    exact plan.isUnbranched_definitions _
  · exact fun statement member => (sections.setup statement member).isUnbranched
  · exact fun statement member => (body statement member).isUnbranched

end Plan

end PlanCompiler
