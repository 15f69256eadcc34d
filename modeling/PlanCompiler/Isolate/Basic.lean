import PlanCompiler.Isolate.Error
import PlanCompiler.Plan.Wire.Reader

/-!
# Isolates

An isolate takes a plan to its result in stages: a plan is ingested, lowered to a source, compiled
to an artifact, and the artifact is executed. Each stage needs the product of the one before, and
a new product releases those of all later stages. A run that ends abnormally poisons the isolate:
from then on every call but a release fails.

Every call yields its result or its error together with the isolate afterwards; a call that fails
early leaves the isolate as it was.
-/

namespace PlanCompiler

/-- The state of an isolate that uses a compiler. -/
structure Isolate {σ α : Type} (compiler : Compiler σ α) where
  /-- Its settings. -/
  config : Config
  /-- The state of the compiler. -/
  workshop : σ
  /-- The installed plan. -/
  plan : Option Plan := none
  /-- The source of the plan. -/
  source : Option Source := none
  /-- The compiled source. -/
  artifact : Option α := none
  /-- A run has ended abnormally. -/
  poisoned : Bool := false

namespace Isolate

variable {σ α : Type} {compiler : Compiler σ α}

/-- A new isolate, if its work directory can be created. -/
def create (makeDirectory : String → Except String Unit) (config : Config) (workshop : σ) :
    Except IsolateError (Isolate compiler) :=
  match makeDirectory config.workDirectory with
  | .ok () => .ok { config, workshop }
  | .error reason => .error (.workDirectory config.workDirectory reason)

/-- Releases the artifact. -/
def releaseArtifact (isolate : Isolate compiler) : Isolate compiler :=
  match isolate.artifact with
  | none => isolate
  | some artifact =>
    { isolate with artifact := none, workshop := compiler.release artifact isolate.workshop }

/-- Releases the artifact, the source and the plan. -/
def release (isolate : Isolate compiler) : Isolate compiler :=
  { isolate.releaseArtifact with source := none, plan := none }

/-- Installs a plan in place of everything there is. -/
def install (plan : Plan) (isolate : Isolate compiler) :
    Except IsolateError Unit × Isolate compiler :=
  if isolate.poisoned then (.error .poisoned, isolate)
  else (.ok (), { isolate.release with plan := some plan })

/-- Decodes a plan and installs it. Everything there is has been released by then, also if the
buffer is no plan. -/
def ingest (buffer : List UInt8) (isolate : Isolate compiler) :
    Except IsolateError Unit × Isolate compiler :=
  if isolate.poisoned then (.error .poisoned, isolate)
  else
    match Plan.decode buffer with
    | .error error => (.error (.notPlan error), isolate.release)
    | .ok plan => isolate.release.install plan

/-- Generates the source of the plan for a request. -/
def generate (request : Request) (isolate : Isolate compiler) :
    Except IsolateError Unit × Isolate compiler :=
  if isolate.poisoned then (.error .poisoned, isolate)
  else
    match isolate.plan with
    | none => (.error .noPlan, isolate)
    | some plan =>
      match plan.generate request isolate.config.batchSize with
      | .error error =>
        (.error (.unsupported request.stage.number request.flags.bits.toInt32 (.notLowered error)),
          isolate)
      | .ok source => (.ok (), { isolate.releaseArtifact with source := some source })

/-- Generates the source of the plan for the request that two numbers stand for. -/
def generateNumbers (stage flags : Int32) (isolate : Isolate compiler) :
    Except IsolateError Unit × Isolate compiler :=
  if isolate.poisoned then (.error .poisoned, isolate)
  else if isolate.plan.isNone then (.error .noPlan, isolate)
  else
    match Request.ofNumbers stage flags with
    | .error error => (.error (.unsupported stage flags (.refused error)), isolate)
    | .ok request => isolate.generate request

/-- Compiles the source. The new artifact replaces the former one, which a failure keeps. The
result is the file of the artifact. -/
def compile (isolate : Isolate compiler) : Except IsolateError String × Isolate compiler :=
  if isolate.poisoned then (.error .poisoned, isolate)
  else
    match isolate.source with
    | none => (.error .noSource, isolate)
    | some source =>
      match compiler.compile isolate.config source isolate.workshop with
      | (.error error, workshop) => (.error (.notCompiled error), { isolate with workshop })
      | (.ok artifact, workshop) =>
        -- The former artifact goes only once the new one exists.
        let former : Isolate compiler := { isolate with workshop }
        (.ok (compiler.path artifact), { former.releaseArtifact with artifact := some artifact })

/-- Runs the artifact. The result is its exit status. -/
def execute (arguments : List String) (isolate : Isolate compiler) :
    Except IsolateError Int32 × Isolate compiler :=
  if isolate.poisoned then (.error .poisoned, isolate)
  else
    match isolate.artifact with
    | none => (.error .noArtifact, isolate)
    | some artifact =>
      match compiler.run artifact arguments isolate.workshop with
      | (.ok status, workshop) => (.ok status, { isolate with workshop })
      -- Only a fault of the run itself poisons, not a run that did not start.
      | (.error (.fault reason), workshop) =>
        (.error (.ofRun (.fault reason)), { isolate with workshop, poisoned := true })
      | (.error error, workshop) => (.error (.ofRun error), { isolate with workshop })

/-- The file of the artifact. -/
def artifactPath (isolate : Isolate compiler) : Option String :=
  isolate.artifact.map compiler.path

end Isolate

end PlanCompiler
