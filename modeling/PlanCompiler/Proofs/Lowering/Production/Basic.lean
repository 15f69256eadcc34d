import PlanCompiler.Proofs.Lowering.Assembly.Basic

/-!
# Production of rows

A pipeline is the result of lowering an operator all at once. A producer does the same step by
step: it is told what to do with the rows or batches that it makes available, its consumer, and
calls it at the place where one of them is at hand. The statements of the consumer end up inside
of those of the producer. What is needed outside of the statements is recorded on the way, and so
is which node is asked for rows and which one hands them on.

## Main definitions

* `Generator`, `Producer`: computations that record what they need and whom they visit;
* `Producer.visited`, `Producer.scan`, `Producer.through`, `Producer.gather`, `Producer.join`: the
  ways of producing rows;
* `Producer.assembly`: putting code together by producing it;
* `Producer.Realises`: a producer does what a pipeline says.

## Main results

* `Producer.isFaithful_assembly`: producers that are made of others do what the pipelines say that
  are made of theirs;
* `Plan.producesOnce_of_realises`: such a producer visits each node of a plan once.
-/

namespace PlanCompiler

/-- What has been recorded. -/
structure Trace where
  /-- What is needed outside of the statements. -/
  sections : Sections := {}
  /-- What has happened to which node, in this order. -/
  visits : List Visit := []

/-- A computation that generates a part of the program. -/
abbrev Generator (α : Type) := StateT Trace (Except LoweringError) α

namespace Generator

/-- Records needs and visits. -/
def record (sections : Sections) (visits : List Visit) : Generator Unit :=
  modify fun trace =>
    { sections := trace.sections ++ sections, visits := trace.visits ++ visits }

/-- Records needs. -/
def need (sections : Sections) : Generator Unit := record sections []

/-- Records a visit. -/
def visit (visit : Visit) : Generator Unit := record {} [visit]

variable {α β : Type}

/-- What is recorded in two steps may be recorded in one. -/
theorem record_bind_record (sections sections' : Sections) (visits visits' : List Visit)
    (rest : Generator α) :
    (do record sections visits; record sections' visits'; rest) =
      (do record (sections ++ sections') (visits ++ visits'); rest) := by
  funext trace
  have assoc := Sections.append_assoc trace.sections sections sections'
  have assoc' := List.append_assoc trace.visits visits visits'
  show rest { sections := _, visits := _ } = rest { sections := _, visits := _ }
  rw [assoc, assoc']

/-- A successful computation is its result. -/
theorem liftM_ok_bind (a : α) (rest : α → Generator β) :
    ((liftM (Except.ok a : Except LoweringError α) : Generator α) >>= rest) = rest a := rfl

end Generator

/-- What is done with a row or a batch that is at hand. -/
abbrev Consumer (ρ : Type) := ρ → Generator (List Statement)

/-- Makes rows or batches available to a consumer. -/
abbrev Producer (ρ : Type) := Consumer ρ → Generator (List Statement)

namespace Producer

open Generator

variable {ρ : Type}

/-- Produces the rows of a node, which is recorded. -/
def visited (node : Nat) (producer : Producer ρ) : Producer ρ := fun consume => do
  visit (.produce node)
  producer fun row => do
    visit (.consume node)
    consume row

/-- Produces what a pipeline makes available without any other producer. -/
def scan (pipeline : Pipeline ρ) : Producer ρ := fun consume => do
  need pipeline.sections
  return pipeline.close (← consume pipeline.output)

/-- Depends on something that may fail. -/
def given {α : Type} (x : Except LoweringError α) (producer : α → Producer ρ) : Producer ρ :=
  fun consume => do producer (← x) consume

/-- Goes on from the rows of another producer one by one. -/
def through (input : Producer ρ) (needs : Sections)
    (step : ρ → Except LoweringError (Frame ρ)) : Producer ρ := fun consume => do
  need needs
  input fun row => do
    let next ← step row
    return next.pipeline.close (← consume next.pipeline.output)

/-- Gathers the rows of another producer, and makes something else available after that. -/
def gather (input : Producer ρ) (needs : Sections)
    (take : ρ → Except LoweringError (List Statement)) (next : Pipeline ρ) : Producer ρ :=
  fun consume => do
    need needs
    let gathered ← input fun row => do take row
    return gathered ++ next.close (← consume next.output)

/-- Stores the rows of one producer, and then goes on from those of another one. -/
def join (left : Producer ρ) (needs : Sections) (store : ρ → List Statement)
    (index : List Statement) (right : Producer ρ) : Producer ρ := fun consume => do
  need needs
  let stored ← left fun row => return store row
  return stored ++ index ++ (← right consume)

/-- Puts code together by producing it. -/
def assembly : Assembly ρ (Producer ρ) where
  nothing := fun _ => return []
  visited := visited
  scan frame := scan frame.pipeline
  given := given
  through input needs step := through input needs.sections step
  gather input needs take frame := gather input needs.sections take frame.pipeline
  join left needs store index right :=
    join left needs.sections (fun row => (store row).statements) index.statements right

/-- A producer does what a pipeline says: it records what the pipeline needs, calls its consumer
once, with what is at hand in the pipeline, and puts the result into the place that the pipeline
has for it. On the way it makes the given visits. -/
def Realises (producer : Producer ρ) (visits : List Visit) (pipeline : Pipeline ρ) : Prop :=
  ∀ consume : Consumer ρ, producer consume = do
    record pipeline.sections visits
    return pipeline.close (← consume pipeline.output)

/-- Producers that are made of others do what the pipelines say that are made of theirs. -/
theorem isFaithful_assembly : (assembly (ρ := ρ)).IsFaithful Realises where
  visited node realises := by
    intro consume
    show Producer.visited node _ consume = _
    rw [Producer.visited, realises]
    simp only [visit, bind_assoc, record_bind_record, Sections.append_nil, Sections.nil_append,
      List.nil_append, List.cons_append]
  scan frame := fun _ => rfl
  given found realises := by
    intro consume
    show Producer.given _ _ consume = _
    rw [Producer.given, found, liftM_ok_bind]
    exact realises consume
  through realises stepped := by
    intro consume
    show Producer.through _ _ _ consume = _
    rw [Producer.through, realises, stepped]
    simp only [need, bind_assoc, record_bind_record, liftM_ok_bind, pure_bind, List.nil_append,
      Pipeline.extend, Pipeline.close, Context.fill_append]
  gather realises gathered := by
    intro consume
    show Producer.gather _ _ _ _ consume = _
    rw [Producer.gather, realises, gathered]
    -- the consumer is called after the rows have been gathered, so outside of their loops
    simp only [need, bind_assoc, record_bind_record, liftM_ok_bind, pure_bind, List.nil_append,
      Pipeline.gather, Pipeline.close, Context.fill_append, Context.fill_runAll]
  join realisesLeft realisesRight := by
    intro consume
    show Producer.join _ _ _ _ _ consume = _
    rw [Producer.join, realisesLeft, realisesRight]
    simp only [need, bind_assoc, record_bind_record, pure_bind, List.nil_append,
      Sections.append_assoc, Pipeline.join, Pipeline.close, Context.fill_append,
      Context.fill_runAll]

end Producer

/-! ## Results -/

namespace Plan

variable (plan : Plan)

/-- A production succeeds and has the sections and the statements that a plan is lowered to. In
doing so it asks each node of the plan for its rows once, depth first from the root on, and each
node calls its consumer once. -/
def ProducesOnce (production : Generator (List Statement))
    (lowered : Except LoweringError (Sections × List Statement)) : Prop :=
  ∃ statements trace, production.run {} = .ok (statements, trace) ∧
    lowered = .ok (trace.sections, statements) ∧
    trace.visits.filterMap Visit.produced? = plan.depthFirst plan.root ∧
    trace.visits.Perm ((List.range plan.nodes.length).flatMap fun k => [.produce k, .consume k])

/-- A producer that does what a pipeline of the whole tree says visits each node once. -/
theorem producesOnce_of_realises {ρ : Type} {producer : Producer ρ} {pipeline : Pipeline ρ}
    (realises : producer.Realises plan.tree.visits pipeline) (sections : Sections)
    (finish : ρ → List Statement) :
    plan.ProducesOnce (do Generator.need sections; producer fun row => return finish row)
      (.ok (sections ++ pipeline.sections, pipeline.close (finish pipeline.output))) := by
  -- the last consumer neither needs nor visits anything
  refine ⟨_, { sections := _, visits := plan.tree.visits }, ?_, rfl, ?_, ?_⟩
  · rw [realises, Generator.need, Generator.record_bind_record]
    rfl
  · rw [PlanTree.produced_visits, plan.unfolds_tree.positions_eq]
  · exact (PlanTree.visits_perm _).trans (plan.positions_tree_perm.flatMap_right _)

end Plan

end PlanCompiler
