import PlanCompiler.Code.Definition

/-!
# Pipelines of the generated program

A pipeline is a part of the program that still has an open place: somewhere inside its loops, at
the point where a row or a batch is at hand, the statements that handle it are missing. A
`Context` is the code around this place; `Context.fill` puts statements there and closes all
blocks. Besides, a pipeline has `Sections`: what it needs outside of the statements.
-/

namespace PlanCompiler

/-- Parts of the program that surround the statements of its pipelines. -/
structure Sections where
  /-- Types and functions. -/
  definitions : List Definition := []
  /-- Variables at the top of the main function. -/
  declarations : List Declaration := []
  /-- Statements that run before all pipelines. -/
  setup : List Statement := []
  /-- The pointers to memory that is released in the end, in this order. -/
  released : List Code := []

namespace Sections

instance : Append Sections where
  append a b :=
    { definitions := a.definitions ++ b.definitions
      declarations := a.declarations ++ b.declarations
      setup := a.setup ++ b.setup
      released := a.released ++ b.released }

/-- A variable with a start value. -/
def plain (type : String) (name : Name) (initial : Code) : Sections :=
  { declarations := [.plain type name initial] }

/-- Memory that is allocated when it is needed. -/
def buffer (type : String) (name : Name) : Sections :=
  { declarations := [.buffer type name], released := [name] }

/-- Memory for the values of a batch. -/
def vector (type : String) (name : Name) : Sections :=
  buffer type name ++ { setup := [.line ("KILN_RESIZE(" ++ name ++ ", KILN_VECTOR_SIZE);")] }

/-- Several sections one after the other. -/
def concat : List Sections → Sections
  | [] => {}
  | first :: rest => first ++ concat rest

end Sections

/-- A step towards the open place of a context. -/
inductive Step where
  /-- A statement that comes before it. -/
  | run (statement : Statement)
  /-- A block that contains all that follows. -/
  | enter (head : Head)

/-- Code with an open place, given by the steps that lead there. -/
abbrev Context := List Step

namespace Context

/-- Statements that come before the open place. -/
def runAll (statements : List Statement) : Context := statements.map .run

/-- Puts statements into the open place and closes all blocks. -/
def fill : Context → List Statement → List Statement
  | [], statements => statements
  | .run statement :: rest, statements => statement :: fill rest statements
  | .enter head :: rest, statements => [.block head (fill rest statements)]

/-- Contexts in a row are filled from the inside out. -/
theorem fill_append (a b : Context) (statements : List Statement) :
    fill (a ++ b) statements = fill a (fill b statements) := by
  induction a with
  | nil => rfl
  | cons step rest ih => cases step <;> simp [fill, ih]

/-- Statements that are run stand in front of what is filled in. -/
@[simp]
theorem fill_runAll (before statements : List Statement) :
    fill (runAll before) statements = before ++ statements := by
  induction before with
  | nil => rfl
  | cons first rest ih => simpa [runAll, fill] using ih

end Context

/-- Code that makes rows or batches of type `ρ` available, one at a time, at an open place. -/
structure Pipeline (ρ : Type) where
  /-- What the pipeline needs outside of the statements. -/
  sections : Sections
  /-- The code around the open place. -/
  context : Context
  /-- What is at hand there. -/
  output : ρ

namespace Pipeline

/-- Goes on from the open place of a pipeline, with needs of its own that come first. -/
def extend {ρ σ : Type} (pipeline : Pipeline ρ) (needs : Sections) (steps : Context) (output : σ) :
    Pipeline σ :=
  { sections := needs ++ pipeline.sections, context := pipeline.context ++ steps, output }

/-- The statements of a pipeline that ends with given statements. -/
def close {ρ : Type} (pipeline : Pipeline ρ) (statements : List Statement) : List Statement :=
  Context.fill pipeline.context statements

/-- Takes in everything that a pipeline makes available, and makes something else available after
that, with needs of its own that come first. -/
def gather {ρ σ : Type} (pipeline : Pipeline ρ) (needs : Sections) (taken : List Statement)
    (steps : Context) (output : σ) : Pipeline σ :=
  { sections := needs ++ pipeline.sections
    context := Context.runAll (pipeline.close taken) ++ steps
    output }

/-- Reads one pipeline to its end, and then goes on from the open place of another one. -/
def join {ρ σ : Type} (left : Pipeline ρ) (right : Pipeline σ) (needs : Sections)
    (stored index : List Statement) : Pipeline σ :=
  { sections := needs ++ left.sections ++ right.sections
    context := Context.runAll (left.close stored ++ index) ++ right.context
    output := right.output }

end Pipeline

end PlanCompiler
