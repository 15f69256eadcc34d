import PlanCompiler.Proofs.Lowering.Assembly.Basic

/-!
# Writing a program from the outside in

A pipeline is the result of lowering an operator all at once, and no block of it can stay open. An
emitter writes the same line by line: what comes in front of the place at which a row or a batch is
at hand; then it calls its handler, which writes what is done there; and then it closes blocks. How
many it closes does not depend on how many it has opened, and its handler is another emitter in the
middle of its own work.

## Main definitions

* `Writing`: computations that write;
* `Handler`, `Emitter`: what writes at a place, and what writes around it;
* `Emitter.scan`, `Emitter.through`, `Emitter.gather`, `Emitter.join`: the ways of writing around a
  place;
* `Emitter.assembly`: putting code together by writing it;
* `Emitter.Realises`: an emitter writes what a pipeline says.

## Main results

* `Emitter.isFaithful_assembly`: emitters that are made of others write what the pipelines say that
  are made of theirs;
* `Emitter.Realises.run`: what an emitter writes altogether.
-/

namespace PlanCompiler

/-- A computation that writes a part of the program. -/
abbrev Writing (α : Type) := StateT Script (Except LoweringError) α

namespace Writing

variable {α β : Type}

/-- Carries out some edits. -/
def write (edits : Script) : Writing Unit := modify fun script => script ++ edits

/-- Writes to the pipelines. -/
def body (edits : List Edit) : Writing Unit := write { body := edits }

/-- Edits may be carried out together. -/
theorem write_write (first second : Script) :
    (do write first; write second) = write (first ++ second) := by
  funext script
  show Except.ok ((), script ++ first ++ second) = Except.ok ((), script ++ (first ++ second))
  rw [Script.append_assoc]

/-- What is written in two steps may be written in one. -/
theorem write_bind_write (first second : Script) (rest : Writing α) :
    (do write first; write second; rest) = (do write (first ++ second); rest) := by
  rw [← write_write, bind_assoc]

/-- A successful computation is its result. -/
theorem liftM_ok_bind (a : α) (rest : α → Writing β) :
    ((liftM (Except.ok a : Except LoweringError α) : Writing α) >>= rest) = rest a := rfl

end Writing

/-! ## Emitters -/

/-- Writes what is done with a row or a batch that is at hand. -/
abbrev Handler (ρ : Type) := ρ → Writing Unit

/-- Writes around a place at which a row or a batch is at hand. -/
abbrev Emitter (ρ : Type) := Handler ρ → Writing Unit

namespace Emitter

open Writing

variable {ρ : Type}

/-- Writes a pipeline that reads no other one. -/
def scan (frame : Frame ρ) : Emitter ρ := fun handle => do
  write frame.pipeline.sections.script
  body frame.opening
  handle frame.pipeline.output
  body frame.closing

/-- Depends on something that may fail. -/
def given {α : Type} (x : Except LoweringError α) (emitter : α → Emitter ρ) : Emitter ρ :=
  fun handle => do emitter (← x) handle

/-- Goes on from the rows of another emitter one by one. -/
def through (input : Emitter ρ) (needs : Script) (step : ρ → Except LoweringError (Frame ρ)) :
    Emitter ρ := fun handle => do
  write needs
  input fun row => do
    let frame ← step row
    body frame.opening
    handle frame.pipeline.output
    body frame.closing

/-- Gathers the rows of another emitter, and makes something else available after that. -/
def gather (input : Emitter ρ) (needs : Script)
    (take : ρ → Except LoweringError (List Statement)) (frame : Frame ρ) : Emitter ρ :=
  fun handle => do
    write needs
    input fun row => do body (Statement.editsOfAll (← take row))
    body frame.opening
    handle frame.pipeline.output
    body frame.closing

/-- Stores the rows of one emitter, and then goes on from those of another one. -/
def join (left : Emitter ρ) (needs : Script) (store : ρ → List Edit) (index : List Edit)
    (right : Emitter ρ) : Emitter ρ := fun handle => do
  write needs
  left fun row => body (store row)
  body index
  right handle

/-- Puts code together by writing it. -/
def assembly : Assembly ρ (Emitter ρ) where
  nothing := fun _ => return
  visited _ emitter := emitter
  scan := scan
  given := given
  through input needs step := through input needs.script step
  gather input needs take frame := gather input needs.script take frame
  join left needs store index right :=
    join left needs.script (fun row => (store row).edits) index.edits right

/-- An emitter writes what a pipeline says: it writes the sections of the pipeline and what comes in
front of its open place, calls its handler once, with what is at hand there, and then closes all
blocks that are open at this place. -/
def Realises (emitter : Emitter ρ) (pipeline : Pipeline ρ) : Prop :=
  ∀ handle : Handler ρ, emitter handle = do
    write (pipeline.sections.script ++ { body := pipeline.context.opening })
    handle pipeline.output
    write { body := pipeline.context.closing }

/-- Emitters that are made of others write what the pipelines say that are made of theirs. What
handles a row closes its blocks before those of the row are closed. -/
theorem isFaithful_assembly :
    (assembly (ρ := ρ)).IsFaithful fun emitter _ pipeline => emitter.Realises pipeline where
  visited _ realises := realises
  scan frame := by
    intro handle
    show Emitter.scan _ handle = _
    rw [Emitter.scan, body, write_bind_write, body, frame.opening_context, frame.closing_context]
  given found realises := by
    intro handle
    show Emitter.given _ _ handle = _
    rw [Emitter.given, found, liftM_ok_bind]
    exact realises handle
  through {input needs step visits pipeline frame} realises stepped := by
    intro handle
    show Emitter.through _ _ _ handle = _
    rw [Emitter.through, realises, stepped, ← needs.script_sections]
    simp only [body, bind_assoc, write_bind_write, write_write, liftM_ok_bind, Pipeline.extend,
      Context.opening_append, Context.closing_append, frame.opening_context, frame.closing_context,
      Sections.script_append, Script.append_assoc, Script.body_append]
  gather {input needs take taken frame visits pipeline} realises gathered := by
    intro handle
    show Emitter.gather _ _ _ _ handle = _
    rw [Emitter.gather, realises, gathered, ← needs.script_sections]
    -- all blocks are closed again when what has been gathered is handled
    simp only [body, bind_assoc, write_bind_write, liftM_ok_bind, Pipeline.gather, Pipeline.close,
      Context.opening_append, Context.closing_append, Context.opening_runAll,
      Context.closing_runAll, Context.editsOfAll_fill, frame.opening_context,
      frame.closing_context, Sections.script_append, Script.append_assoc, Script.body_append,
      List.append_assoc, List.append_nil]
  join {left right needs store index _ _ leftPipeline rightPipeline} realisesLeft
      realisesRight := by
    intro handle
    show Emitter.join _ _ _ _ _ handle = _
    rw [Emitter.join, realisesLeft, realisesRight, ← needs.script_sections]
    -- the right sections are written after the statements that store the left rows
    simp only [body, bind_assoc, write_bind_write, Pipeline.join, Pipeline.close,
      Context.opening_append, Context.closing_append, Context.opening_runAll,
      Context.closing_runAll, Context.editsOfAll_fill, Statement.editsOfAll_append,
      Passage.editsOfAll_statements, Sections.script_append, Sections.body_append_script_append,
      Script.append_assoc, Script.body_append, List.append_assoc, List.append_nil]

namespace Realises

/-- What is written altogether, once it is known what is done at the place. -/
theorem run {input : Emitter ρ} {pipeline : Pipeline ρ} (realises : input.Realises pipeline)
    (needs : Needs) (finish : ρ → Passage) :
    (do write needs.script; input fun row => body (finish row).edits : Writing Unit).run {} =
      .ok ((), (needs.sections ++ pipeline.sections).script ++
        { body := Statement.editsOfAll (pipeline.close (finish pipeline.output).statements) }) := by
  rw [realises, ← needs.script_sections]
  simp only [body, write_write, Pipeline.close, Context.editsOfAll_fill,
    Passage.editsOfAll_statements, Sections.script_append, Script.append_assoc,
    Script.body_append, List.append_assoc]
  rfl

end Realises

end Emitter

end PlanCompiler
