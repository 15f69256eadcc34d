import PlanCompiler.Isolate.StandIn
import PlanCompiler.Proofs.Isolate.Call
import PlanCompiler.Proofs.Plan.Wire.RoundTrip

/-!
# Coherence of isolates

The products of an isolate belong together at all times: its source is the one that its plan has,
and its artifact is what the compiler made of this source. So an artifact is never without its
source, and a source never without its plan.

## Main definitions

* `Isolate.Coherent`: the plan, the source and the artifact belong together.

## Main results

* `Isolate.Step.coherent`: a step keeps them together;
* `Isolate.coherent_of_reachable`: so they belong together in every state that calls lead to.
-/

namespace PlanCompiler.Isolate

variable {σ α : Type} {compiler : Compiler σ α} {isolate after : Isolate compiler}

/-- A source carries the request that it was generated for. -/
theorem request_of_generate {plan : Plan} {request : Request} {vectorSize : Nat} {source : Source}
    (lowered : plan.generate request vectorSize = .ok source) : source.request = request := by
  rw [Plan.generate, bind_eq_ok_iff] at lowered
  obtain ⟨program, -, result⟩ := lowered
  rw [← Except.ok.inj result]

variable (compiler) in
/-- An artifact is what the compiler made of a source, as a configuration says, in a state that an
isolate with this configuration and this source has reached. -/
def MadeFrom (artifact : α) (config : Config) (source : Source) : Prop :=
  ∃ earlier : Isolate compiler, Reachable earlier ∧ earlier.config = config ∧
    earlier.source = some source ∧
    ∃ workshop, compiler.compile config source earlier.workshop = (.ok artifact, workshop)

/-- The products of an isolate belong together. -/
structure Coherent (isolate : Isolate compiler) : Prop where
  /-- The source is generated from the plan. -/
  source_of_plan : ∀ source, isolate.source = some source → ∃ plan, isolate.plan = some plan ∧
    plan.generate source.request isolate.config.batchSize = .ok source
  /-- The artifact is compiled from the source. -/
  artifact_of_source : ∀ artifact, isolate.artifact = some artifact →
    ∃ source, isolate.source = some source ∧
      MadeFrom compiler artifact isolate.config source

namespace Coherent

/-- What matters are the configuration and the products. -/
theorem congr (coherent : isolate.Coherent) (config : after.config = isolate.config)
    (plan : after.plan = isolate.plan) (source : after.source = isolate.source)
    (artifact : after.artifact = isolate.artifact) : after.Coherent := by
  constructor
  · rw [source, plan, config]
    exact coherent.source_of_plan
  · rw [artifact, source, config]
    exact coherent.artifact_of_source

/-- Without a source and an artifact there is nothing that could belong to another plan. -/
theorem of_empty (source : isolate.source = none) (artifact : isolate.artifact = none) :
    isolate.Coherent := by
  constructor
  · rw [source]
    exact nofun
  · rw [artifact]
    exact nofun

end Coherent

/-- Every step keeps the products together. -/
theorem Step.coherent {call : Call} {outcome : Except IsolateError Reply}
    (reachable : Reachable isolate) (coherent : isolate.Coherent)
    (step : Step isolate call outcome after) : after.Coherent := by
  cases step with
  | poisoned | noPlan | unsupported | noSource | noArtifact => exact coherent
  | notCompiled | notRun | fault | executed => exact coherent.congr rfl rfl rfl rfl
  | release | notPlan | ingested | installed =>
    exact .of_empty rfl (releaseArtifact_artifact isolate)
  | @generated _ plan request source _ _ installed lowered =>
    -- the source is new and there is no artifact yet
    constructor
    · rintro _ ⟨⟩
      refine ⟨plan, (releaseArtifact_plan isolate).trans installed, ?_⟩
      rw [request_of_generate lowered]
      exact (releaseArtifact_config isolate).symm ▸ lowered
    · intro artifact present
      cases present.symm.trans (releaseArtifact_artifact isolate)
  | @compiled source artifact workshop _ generated made =>
    constructor
    · simp only [releaseArtifact_plan, releaseArtifact_source, releaseArtifact_config]
      exact coherent.source_of_plan
    · -- the artifact is new and has been made in the state before this step
      rintro _ ⟨⟩
      simp only [releaseArtifact_source, releaseArtifact_config]
      exact ⟨source, generated, isolate, reachable, rfl, generated, workshop, made⟩

/-- In every state that calls lead to, the source is generated from the plan, and the artifact
is compiled from the source. -/
theorem coherent_of_reachable (reachable : Reachable isolate) : isolate.Coherent := by
  induction reachable with
  | created made =>
    rw [eq_of_create made]
    exact .of_empty rfl rfl
  | @called isolate call before coherent =>
    exact (isolate.step_perform call).coherent before coherent
  | interfered workshop _ coherent => exact coherent.congr rfl rfl rfl rfl

/-- An isolate that has compiled a plan. -/
def compiledLargeOrders : Isolate StandIn.compiler :=
  let start : Isolate StandIn.compiler := { config := .standard "/tmp", workshop := {} }
  let installed := ((Call.install .largeOrders).perform start).2
  let generated := ((Call.generateNumbers 1 8).perform installed).2
  (Call.compile.perform generated).2

/-- An isolate that has compiled the plan of large orders is coherent. -/
theorem coherent_compiledLargeOrders :
    Reachable compiledLargeOrders ∧
      compiledLargeOrders.artifact = some "fake-vectorised-0.so" ∧ compiledLargeOrders.Coherent :=
  have created : Reachable
      ({ config := .standard "/tmp", workshop := {} } : Isolate StandIn.compiler) :=
    @Reachable.created _ _ _ (fun _ => .ok ()) _ _ _ rfl
  have reachable : Reachable compiledLargeOrders := ((created.called _).called _).called _
  ⟨reachable, by rfl, coherent_of_reachable reachable⟩

end PlanCompiler.Isolate
