import PlanCompiler.Lowering.Expr
import PlanCompiler.Proofs.Code.Blocks
import PlanCompiler.Proofs.Lowering.Sections.Basic
import PlanCompiler.Proofs.Outcome
import PlanCompiler.Proofs.Plan.Spanning

/-!
# Putting code together node by node

The code for the rows of a node is put together from that for the rows of its inputs. There is more
than one way to do so: statements may be handed back to the caller, or written to the program line
by line. What each operator contributes is the same: statements, and a pipeline that goes on from
the rows of its input. Here these come with the edits that write them, and an assembly says what is
made of them.

## Main definitions

* `Script`: what is done to each section of a program, in this order;
* `Passage`, `Needs`, `Frame`: statements, sections and pipelines with the edits that write them;
* `Visit`: what happens to a node while code is put together;
* `Assembly`: a way of putting code together;
* `Assembly.IsFaithful`: what is put together does what pipelines say.

## Main results

* `PlanTree.produced_visits`, `PlanTree.visits_perm`: each node of a tree is visited once.
-/

namespace PlanCompiler

/-! ## Scripts -/

/-- What is done to each section of a program. -/
structure Script where
  /-- Definitions. -/
  globals : List Edit := []
  /-- Variables at the top of the main function. -/
  decls : List Edit := []
  /-- What runs before the pipelines. -/
  setup : List Edit := []
  /-- The pipelines. -/
  body : List Edit := []
  /-- What releases memory in the end. -/
  cleanup : List Edit := []

namespace Script

instance : Append Script where
  append a b :=
    { globals := a.globals ++ b.globals
      decls := a.decls ++ b.decls
      setup := a.setup ++ b.setup
      body := a.body ++ b.body
      cleanup := a.cleanup ++ b.cleanup }

/-- Scripts may be grouped in any way. -/
theorem append_assoc (a b c : Script) : a ++ b ++ c = a ++ (b ++ c) := by
  show mk (_ ++ _ ++ _) (_ ++ _ ++ _) (_ ++ _ ++ _) (_ ++ _ ++ _) (_ ++ _ ++ _) = _
  simp only [List.append_assoc]
  rfl

/-- What is written to the pipelines in two steps. -/
theorem body_append (first second : List Edit) :
    ({ body := first } ++ { body := second } : Script) = { body := first ++ second } := rfl

end Script

/-- The edits that write some sections. -/
def Sections.script (sections : Sections) : Script where
  globals := sections.definitions.flatMap Definition.edits
  decls := sections.declarations.map fun declaration => .line 0 declaration.line.code
  setup := Statement.editsOfAll sections.setup
  cleanup := Statement.editsOfAll
    (sections.released.map fun place => .line ("free(" ++ place ++ ");"))

namespace Sections

/-- Sections are written one after the other. -/
theorem script_append (a b : Sections) : (a ++ b).script = a.script ++ b.script := by
  show Script.mk _ _ _ _ _ = Script.mk _ _ _ _ _
  rw [Script.mk.injEq]
  refine ⟨List.flatMap_append, List.map_append, Statement.editsOfAll_append _ _, rfl, ?_⟩
  exact (congrArg Statement.editsOfAll List.map_append).trans (Statement.editsOfAll_append _ _)

/-- Sections and pipelines are written to different places. -/
theorem body_append_script_append (body : List Edit) (sections : Sections) (rest : Script) :
    { body } ++ (sections.script ++ rest) = sections.script ++ ({ body } ++ rest) := rfl

/-- What is written when the pipelines come after all sections. -/
theorem script_append_body (sections : Sections) (body : List Edit) :
    sections.script ++ { body } = { sections.script with body } := by
  show Script.mk (_ ++ []) (_ ++ []) (_ ++ []) _ (_ ++ []) = _
  simp only [List.append_nil]
  rfl

end Sections

/-! ## Code with the edits that write it -/

/-- Statements with the edits that write them. -/
structure Passage where
  /-- The statements. -/
  statements : List Statement
  /-- The edits, which open and close each block by themselves. -/
  edits : List Edit
  /-- They do what the statements say. -/
  editsOfAll_statements : Statement.editsOfAll statements = edits

/-- Sections with the script that writes them. -/
structure Needs where
  /-- The sections. -/
  sections : Sections
  /-- The script. -/
  script : Script
  /-- It does what the sections say. -/
  script_sections : sections.script = script

namespace Needs

/-- Sections without blocks, such as variables. -/
def plain (sections : Sections) : Needs := ⟨sections, sections.script, rfl⟩

/-- Sections with definitions that are written by given edits. -/
def defined (sections : Sections) (globals : List Edit)
    (same : sections.definitions.flatMap Definition.edits = globals) : Needs where
  sections := sections
  script := { sections.script with globals }
  script_sections := by rw [← same]; rfl

instance : Append Needs where
  append a b :=
    { sections := a.sections ++ b.sections
      script := a.script ++ b.script
      script_sections := by rw [Sections.script_append, a.script_sections, b.script_sections] }

end Needs

/-- A pipeline with the edits in front of its open place, and those behind it. -/
structure Frame (ρ : Type) where
  /-- The pipeline. -/
  pipeline : Pipeline ρ
  /-- What is written in front of the open place. -/
  opening : List Edit
  /-- What is written behind it. -/
  closing : List Edit
  /-- The edits in front do what the pipeline says. -/
  opening_context : pipeline.context.opening = opening
  /-- The edits behind close just the blocks that are open. -/
  closing_context : pipeline.context.closing = closing

namespace Frame

variable {ρ : Type}

/-- A pipeline with given edits behind its open place. -/
def of (pipeline : Pipeline ρ) (closing : List Edit)
    (closes : pipeline.context.closing = closing) : Frame ρ :=
  ⟨pipeline, pipeline.context.opening, closing, rfl, closes⟩

/-- A pipeline that may fail to be made, with given edits behind its open place. -/
def ofMade (made : Except LoweringError (Pipeline ρ)) (closing : List Edit)
    (closes : Gives made (·.context.closing = closing)) : Except LoweringError (Frame ρ) :=
  match made, closes with
  | .ok pipeline, closes => .ok (of pipeline closing (closes pipeline rfl))
  | .error error, _ => .error error

/-- If the pipeline can be made, so can the frame. -/
theorem exists_ofMade {made : Except LoweringError (Pipeline ρ)} {closing : List Edit}
    (closes : Gives made (·.context.closing = closing)) {pipeline : Pipeline ρ}
    (found : made = .ok pipeline) :
    ∃ frame, ofMade made closing closes = .ok frame ∧ frame.pipeline = pipeline := by
  subst found
  exact ⟨_, rfl, rfl⟩

end Frame

/-- The pipeline at the place where a row or a batch is at hand. -/
def Pipeline.start {ρ : Type} (output : ρ) : Pipeline ρ := { sections := {}, context := [], output }

/-! ## Assemblies -/

/-- What happens to a node while code is put together. -/
inductive Visit where
  /-- It is asked for its rows. -/
  | produce (node : Nat)
  /-- It hands rows on to its consumer. -/
  | consume (node : Nat)
deriving DecidableEq, Repr

/-- The node that is asked for its rows. -/
def Visit.produced? : Visit → Option Nat
  | .produce node => some node
  | .consume _ => none

namespace PlanTree

/-- The visits during the production of the rows of a tree: each node is asked for its rows before
those that it reads are, and hands rows on after they do. -/
def visits : PlanTree → List Visit
  | .scan site .. => [.produce site.node, .consume site.node]
  | .filter site _ input | .project site _ input | .aggregate site _ _ input =>
    .produce site.node :: (input.visits ++ [.consume site.node])
  | .join site _ _ left right =>
    .produce site.node :: (left.visits ++ right.visits ++ [.consume site.node])

/-- The nodes are asked for their rows in the order of their positions in the tree. -/
theorem produced_visits (tree : PlanTree) :
    tree.visits.filterMap Visit.produced? = tree.positions := by
  induction tree with
  | scan site => rfl
  | filter site _ input ih | project site _ input ih | aggregate site _ _ input ih =>
    simp [visits, positions, Visit.produced?, ih]
  | join site _ _ left right ihLeft ihRight =>
    simp [visits, positions, Visit.produced?, ihLeft, ihRight]

/-- Each node is asked for its rows once and hands them on once. -/
theorem visits_perm (tree : PlanTree) :
    tree.visits.Perm (tree.positions.flatMap fun k => [.produce k, .consume k]) := by
  induction tree with
  | scan site => exact .refl _
  | filter site _ input ih | project site _ input ih | aggregate site _ _ input ih =>
    exact ((List.perm_append_singleton _ _).trans (ih.cons _)).cons _
  | join site _ _ left right ihLeft ihRight =>
    rw [positions, List.flatMap_cons, List.flatMap_append]
    exact ((List.perm_append_singleton _ _).trans ((ihLeft.append ihRight).cons _)).cons _

end PlanTree

/-- A way of putting code together. What is made of a node is a `τ`. -/
structure Assembly (ρ τ : Type) where
  /-- No rows are made available. -/
  nothing : τ
  /-- These are the rows of a node. -/
  visited (node : Nat) (rows : τ) : τ
  /-- The rows of a pipeline that reads no other one. -/
  scan (frame : Frame ρ) : τ
  /-- Rows that depend on something that may fail. -/
  given {α : Type} (x : Except LoweringError α) (rows : α → τ) : τ
  /-- Goes on from the rows of an input one by one. -/
  through (input : τ) (needs : Needs) (step : ρ → Except LoweringError (Frame ρ)) : τ
  /-- Takes in the rows of an input, and makes something else available after that. -/
  gather (input : τ) (needs : Needs) (take : ρ → Except LoweringError (List Statement))
    (frame : Frame ρ) : τ
  /-- Stores the rows of one input, and then goes on from those of another one. -/
  join (left : τ) (needs : Needs) (store : ρ → Passage) (index : Passage) (right : τ) : τ

/-- What is put together does what pipelines say. `Realises rows visits pipeline` has to be known of
each part of it, and then is known of the whole. -/
structure Assembly.IsFaithful {ρ τ : Type} (assembly : Assembly ρ τ)
    (Realises : τ → List Visit → Pipeline ρ → Prop) : Prop where
  /-- A node is asked for its rows before its inputs are, and hands rows on after they do. -/
  visited {rows : τ} {visits : List Visit} {pipeline : Pipeline ρ} (node : Nat)
    (realises : Realises rows visits pipeline) :
    Realises (assembly.visited node rows) (.produce node :: (visits ++ [.consume node])) pipeline
  /-- A scan has the pipeline of its frame. -/
  scan (frame : Frame ρ) : Realises (assembly.scan frame) [] frame.pipeline
  /-- If what the rows depend on succeeds, its result is used. -/
  given {α : Type} {x : Except LoweringError α} {a : α} {rows : α → τ} {visits : List Visit}
    {pipeline : Pipeline ρ} (found : x = .ok a) (realises : Realises (rows a) visits pipeline) :
    Realises (assembly.given x rows) visits pipeline
  /-- The pipeline of the input is extended. -/
  through {input : τ} {needs : Needs} {step : ρ → Except LoweringError (Frame ρ)}
    {visits : List Visit} {pipeline : Pipeline ρ} {frame : Frame ρ}
    (realises : Realises input visits pipeline) (stepped : step pipeline.output = .ok frame) :
    Realises (assembly.through input needs step) visits
      (pipeline.extend needs.sections frame.pipeline.context frame.pipeline.output)
  /-- The pipeline of the input is closed. -/
  gather {input : τ} {needs : Needs} {take : ρ → Except LoweringError (List Statement)}
    {taken : List Statement} {frame : Frame ρ} {visits : List Visit} {pipeline : Pipeline ρ}
    (realises : Realises input visits pipeline) (gathered : take pipeline.output = .ok taken) :
    Realises (assembly.gather input needs take frame) visits
      (pipeline.gather needs.sections taken frame.pipeline.context frame.pipeline.output)
  /-- The pipeline of the left input is closed, and that of the right one stays open. -/
  join {left right : τ} {needs : Needs} {store : ρ → Passage} {index : Passage}
    {leftVisits rightVisits : List Visit} {leftPipeline rightPipeline : Pipeline ρ}
    (realisesLeft : Realises left leftVisits leftPipeline)
    (realisesRight : Realises right rightVisits rightPipeline) :
    Realises (assembly.join left needs store index right) (leftVisits ++ rightVisits)
      (leftPipeline.join rightPipeline needs.sections (store leftPipeline.output).statements
        index.statements)

end PlanCompiler
