import PlanCompiler.Isolate.Basic

/-!
# Calls on isolates

The operations of an isolate as one type of calls. Every call is one of a few steps, and which one
it is depends on the plan, the source and the artifact that there are, on the mark of an abnormal
run, and on what the compiler answers.

## Main definitions

* `Isolate.Call`, `Isolate.Call.perform`: a call and what comes of it;
* `Isolate.Step`: the steps that calls consist of;
* `Isolate.Reachable`: the states that calls lead to.

## Main results

* `Isolate.step_perform`: every call is a step.
-/

namespace PlanCompiler.Isolate

variable {σ α : Type} {compiler : Compiler σ α}

/-- A call on an isolate. -/
inductive Call where
  /-- Decodes a plan and installs it. -/
  | ingest (buffer : List UInt8)
  /-- Installs a plan. -/
  | install (plan : Plan)
  /-- Generates the source for the request that two numbers stand for. -/
  | generateNumbers (stage flags : Int32)
  /-- Generates the source for a request. -/
  | generate (request : Request)
  /-- Compiles the source. -/
  | compile
  /-- Runs the artifact. -/
  | execute (arguments : List String)
  /-- Releases everything. -/
  | release

/-- What a call yields. -/
inductive Reply where
  /-- Nothing but the change of the isolate. -/
  | done
  /-- The file of an artifact. -/
  | file (path : String)
  /-- The exit status of a run. -/
  | status (code : Int32)
deriving DecidableEq, Repr

namespace Call

/-- Carries out a call, which yields a reply or an error, and gives the isolate afterwards. -/
def perform (isolate : Isolate compiler) : Call → Except IsolateError Reply × Isolate compiler
  | .ingest buffer => reply (fun _ => .done) (isolate.ingest buffer)
  | .install plan => reply (fun _ => .done) (isolate.install plan)
  | .generateNumbers stage flags => reply (fun _ => .done) (isolate.generateNumbers stage flags)
  | .generate request => reply (fun _ => .done) (isolate.generate request)
  | .compile => reply .file isolate.compile
  | .execute arguments => reply .status (isolate.execute arguments)
  | .release => (.ok .done, isolate.release)
where
  /-- The outcome of an operation, its result as a reply. -/
  reply {β : Type} (form : β → Reply) (outcome : Except IsolateError β × Isolate compiler) :
      Except IsolateError Reply × Isolate compiler :=
    (outcome.1.map form, outcome.2)

/-- The request that a call generates a source for. -/
def request? : Call → Except RequestError (Option Request)
  | .generate request => .ok (some request)
  | .generateNumbers stage flags => (Request.ofNumbers stage flags).map some
  | .ingest _ | .install _ | .compile | .execute _ | .release => .ok none

/-- The call generates a source. -/
def isGeneration : Call → Bool
  | .generate _ | .generateNumbers .. => true
  | .ingest _ | .install _ | .compile | .execute _ | .release => false

end Call

/-- The steps that calls on an isolate consist of: a call, what it yields, and the isolate
afterwards. All but the first two are steps of an isolate that is not poisoned. -/
inductive Step (isolate : Isolate compiler) :
    Call → Except IsolateError Reply → Isolate compiler → Prop where
  | release : Step isolate .release (.ok .done) isolate.release
  | poisoned {call : Call} (marked : isolate.poisoned = true) (refused : call ≠ .release) :
    Step isolate call (.error .poisoned) isolate
  | notPlan {buffer : List UInt8} {error : Wire.DecodeError} (running : isolate.poisoned = false)
      (malformed : Plan.decode buffer = .error error) :
    Step isolate (.ingest buffer) (.error (.notPlan error)) isolate.release
  | ingested {buffer : List UInt8} {plan : Plan} (running : isolate.poisoned = false)
      (decoded : Plan.decode buffer = .ok plan) :
    Step isolate (.ingest buffer) (.ok .done) { isolate.release with plan := some plan }
  | installed {plan : Plan} (running : isolate.poisoned = false) :
    Step isolate (.install plan) (.ok .done) { isolate.release with plan := some plan }
  | noPlan {call : Call} (running : isolate.poisoned = false)
      (generation : call.isGeneration = true)
      (missing : isolate.plan = none) :
    Step isolate call (.error .noPlan) isolate
  | unsupported {call : Call} {plan : Plan} {stage flags : Int32} {error : GenerationError}
      (running : isolate.poisoned = false) (generation : call.isGeneration = true)
      (installed : isolate.plan = some plan) :
    Step isolate call (.error (.unsupported stage flags error)) isolate
  | generated {call : Call} {plan : Plan} {request : Request} {source : Source}
      (running : isolate.poisoned = false) (asked : call.request? = .ok (some request))
      (installed : isolate.plan = some plan)
      (lowered : plan.generate request isolate.config.batchSize = .ok source) :
    Step isolate call (.ok .done) { isolate.releaseArtifact with source := some source }
  | noSource (running : isolate.poisoned = false) (missing : isolate.source = none) :
    Step isolate .compile (.error .noSource) isolate
  | notCompiled {source : Source} {error : CompileError} {workshop : σ}
      (running : isolate.poisoned = false) (generated : isolate.source = some source)
      (failed :
        compiler.compile isolate.config source isolate.workshop = (.error error, workshop)) :
    Step isolate .compile (.error (.notCompiled error)) { isolate with workshop }
  | compiled {source : Source} {artifact : α} {workshop : σ} (running : isolate.poisoned = false)
      (generated : isolate.source = some source)
      (made : compiler.compile isolate.config source isolate.workshop = (.ok artifact, workshop)) :
    Step isolate .compile (.ok (.file (compiler.path artifact)))
      { ({ isolate with workshop } : Isolate compiler).releaseArtifact with
        artifact := some artifact }
  | noArtifact {arguments : List String} (running : isolate.poisoned = false)
      (missing : isolate.artifact = none) :
    Step isolate (.execute arguments) (.error .noArtifact) isolate
  | notRun {arguments : List String} {artifact : α} {error : RunError} {workshop : σ}
      (running : isolate.poisoned = false) (compiled : isolate.artifact = some artifact)
      (ordinary : ∀ reason, error ≠ .fault reason)
      (failed : compiler.run artifact arguments isolate.workshop = (.error error, workshop)) :
    Step isolate (.execute arguments) (.error (.ofRun error)) { isolate with workshop }
  | fault {arguments : List String} {artifact : α} {reason : String} {workshop : σ}
      (running : isolate.poisoned = false) (compiled : isolate.artifact = some artifact)
      (failed : compiler.run artifact arguments isolate.workshop =
        (.error (.fault reason), workshop)) :
    Step isolate (.execute arguments) (.error (.notRun (.fault reason)))
      { isolate with workshop, poisoned := true }
  | executed {arguments : List String} {artifact : α} {status : Int32} {workshop : σ}
      (running : isolate.poisoned = false) (compiled : isolate.artifact = some artifact)
      (ran : compiler.run artifact arguments isolate.workshop = (.ok status, workshop)) :
    Step isolate (.execute arguments) (.ok (.status status)) { isolate with workshop }

/-! ## Releasing -/

/-- Releasing the artifact leaves the settings. -/
@[simp]
theorem releaseArtifact_config (isolate : Isolate compiler) :
    isolate.releaseArtifact.config = isolate.config := by
  unfold releaseArtifact
  split <;> rfl

/-- Releasing the artifact leaves the plan. -/
@[simp]
theorem releaseArtifact_plan (isolate : Isolate compiler) :
    isolate.releaseArtifact.plan = isolate.plan := by
  unfold releaseArtifact
  split <;> rfl

/-- Releasing the artifact leaves the source. -/
@[simp]
theorem releaseArtifact_source (isolate : Isolate compiler) :
    isolate.releaseArtifact.source = isolate.source := by
  unfold releaseArtifact
  split <;> rfl

/-- Releasing the artifact leaves the mark. -/
@[simp]
theorem releaseArtifact_poisoned (isolate : Isolate compiler) :
    isolate.releaseArtifact.poisoned = isolate.poisoned := by
  unfold releaseArtifact
  split <;> rfl

/-- Releasing the artifact leaves none. -/
@[simp]
theorem releaseArtifact_artifact (isolate : Isolate compiler) :
    isolate.releaseArtifact.artifact = none := by
  unfold releaseArtifact
  split
  · assumption
  · rfl

/-- Without an artifact there is none to release. -/
theorem releaseArtifact_eq_self {isolate : Isolate compiler} (missing : isolate.artifact = none) :
    isolate.releaseArtifact = isolate := by
  rw [releaseArtifact, missing]

/-- What has been released cannot be released again. -/
theorem release_release (isolate : Isolate compiler) :
    isolate.release.release = isolate.release := by
  have empty : isolate.release.artifact = none := releaseArtifact_artifact isolate
  rw [release, releaseArtifact_eq_self empty]
  rfl

/-! ## Calls are steps -/

section

variable {isolate after : Isolate compiler}

/-- A plan that is installed replaces everything there is. -/
theorem install_of_running (running : isolate.poisoned = false) (plan : Plan) :
    isolate.install plan = (.ok (), { isolate.release with plan := some plan }) := by
  rw [install, running]
  rfl

/-- All calls but a release are guarded in the same way, so that what they do besides is done by an
isolate that is not poisoned. -/
theorem step_of_guard {β : Type} {call : Call} {form : β → Reply} {result : Except IsolateError β}
    {unguarded : Except IsolateError β × Isolate compiler} (refused : call ≠ .release)
    (h : (if isolate.poisoned then (.error .poisoned, isolate) else unguarded) = (result, after))
    (step : isolate.poisoned = false → unguarded = (result, after) →
      Step isolate call (result.map form) after) :
    Step isolate call (result.map form) after := by
  split at h
  · rename_i marked
    cases h
    exact .poisoned marked refused
  · rename_i unmarked
    exact step (Bool.not_eq_true _ ▸ unmarked) h

/-- An isolate that ingests a buffer takes that step. -/
theorem step_of_ingest {buffer : List UInt8} {result : Except IsolateError Unit}
    (h : isolate.ingest buffer = (result, after)) :
    Step isolate (.ingest buffer) (result.map fun _ => .done) after := by
  refine step_of_guard nofun h fun running h => ?_
  split at h
  · rename_i error malformed
    cases h
    exact .notPlan running malformed
  · rename_i plan decoded
    -- the plan is installed into an isolate that has been emptied before
    have emptied : isolate.release.poisoned = false :=
      (releaseArtifact_poisoned isolate).trans running
    rw [install_of_running emptied, release_release] at h
    cases h
    exact .ingested running decoded

/-- An isolate that installs a plan takes that step. -/
theorem step_of_install {plan : Plan} {result : Except IsolateError Unit}
    (h : isolate.install plan = (result, after)) :
    Step isolate (.install plan) (result.map fun _ => .done) after := by
  refine step_of_guard nofun h fun running h => ?_
  cases h
  exact .installed running

/-- The steps of a call that generates the source for a request. -/
theorem step_of_generate {call : Call} {request : Request} {result : Except IsolateError Unit}
    (asked : call.request? = .ok (some request)) (generation : call.isGeneration = true)
    (h : isolate.generate request = (result, after)) :
    Step isolate call (result.map fun _ => .done) after := by
  have refused : call ≠ .release := by
    rintro rfl
    cases generation
  -- the mark was looked at first, and behind it the plan decides
  refine step_of_guard refused h fun running h => ?_
  split at h
  · rename_i missing
    cases h
    exact .noPlan running generation missing
  · rename_i plan installed
    split at h
    · cases h
      exact .unsupported running generation installed
    · rename_i source lowered
      cases h
      exact .generated running asked installed lowered

/-- An isolate that generates by numbers takes that step. -/
theorem step_of_generateNumbers {stage flags : Int32} {result : Except IsolateError Unit}
    (h : isolate.generateNumbers stage flags = (result, after)) :
    Step isolate (.generateNumbers stage flags) (result.map fun _ => .done) after := by
  refine step_of_guard nofun h fun running h => ?_
  split at h
  · rename_i missing
    cases h
    exact .noPlan running rfl (Option.isNone_iff_eq_none.1 missing)
  · rename_i present
    obtain ⟨plan, installed⟩ :=
      Option.ne_none_iff_exists'.1 (mt Option.isNone_iff_eq_none.2 present)
    split at h
    · cases h
      exact .unsupported running rfl installed
    · rename_i request asked
      -- from here on the call is the one for the request
      refine step_of_generate ?_ rfl h
      rw [Call.request?, asked]
      rfl

/-- An isolate that compiles takes that step. -/
theorem step_of_compile {result : Except IsolateError String}
    (h : isolate.compile = (result, after)) : Step isolate .compile (result.map .file) after := by
  refine step_of_guard nofun h fun running h => ?_
  split at h
  · rename_i missing
    cases h
    exact .noSource running missing
  · rename_i source generated
    split at h
    · rename_i failed
      cases h
      exact .notCompiled running generated failed
    · rename_i made
      cases h
      exact .compiled running generated made

/-- An isolate that executes takes that step. -/
theorem step_of_execute {arguments : List String} {result : Except IsolateError Int32}
    (h : isolate.execute arguments = (result, after)) :
    Step isolate (.execute arguments) (result.map .status) after := by
  refine step_of_guard nofun h fun running h => ?_
  split at h
  · rename_i missing
    cases h
    exact .noArtifact running missing
  · rename_i artifact compiled
    -- a run that did not start is told from one that ended abnormally
    split at h
    · rename_i ran
      cases h
      exact .executed running compiled ran
    · rename_i failed
      cases h
      exact .fault running compiled failed
    · rename_i ordinary failed
      cases h
      exact .notRun running compiled ordinary failed

/-- Every call is a step. -/
theorem step_perform (isolate : Isolate compiler) (call : Call) :
    Step isolate call (call.perform isolate).1 (call.perform isolate).2 := by
  cases call with
  | ingest buffer => exact step_of_ingest rfl
  | install plan => exact step_of_install rfl
  | generateNumbers stage flags => exact step_of_generateNumbers rfl
  | generate request => exact step_of_generate rfl rfl rfl
  | compile => exact step_of_compile rfl
  | execute arguments => exact step_of_execute rfl
  | release => exact .release

end

/-! ## Reachable states -/

/-- The states of an isolate from its creation on, after any calls. Between two calls the state of
the compiler may change as well. -/
inductive Reachable : Isolate compiler → Prop where
  | created {makeDirectory : String → Except String Unit} {config : Config} {workshop : σ}
      {isolate : Isolate compiler} (made : create makeDirectory config workshop = .ok isolate) :
    Reachable isolate
  | called {isolate : Isolate compiler} (call : Call) (before : Reachable isolate) :
    Reachable (call.perform isolate).2
  | interfered {isolate : Isolate compiler} (workshop : σ) (before : Reachable isolate) :
    Reachable { isolate with workshop }

/-- An isolate starts out empty. -/
theorem eq_of_create {makeDirectory : String → Except String Unit} {config : Config}
    {workshop : σ} {isolate : Isolate compiler}
    (made : create makeDirectory config workshop = .ok isolate) :
    isolate = { config, workshop } := by
  rw [create] at made
  split at made
  · exact (Except.ok.inj made).symm
  · cases made

end PlanCompiler.Isolate
