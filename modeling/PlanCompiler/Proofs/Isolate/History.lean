import PlanCompiler.Proofs.Isolate.Coherence
import PlanCompiler.Proofs.Lowering.Pipelines

/-!
# Missing products

A call that needs a product of an earlier stage fails if there is none. Whether there is one can
be told from the calls so far and from how they ended: the plan is missing if the last call to
replace it has only removed it, the source if none has been generated for the plan since, and the
artifact if the source has not been compiled since.

## Main definitions

* `Isolate.Ran`: the calls that an isolate has taken, with what came of them;
* `Isolate.LacksPlan`, `Isolate.LacksSource`, `Isolate.LacksArtifact`: what the calls have not left
  behind.

## Main results

* `Isolate.recorded_of_ran`: the calls tell which products there are;
* `Isolate.missing_iff_of_ran`: hence they tell which calls fail for want of a product.
-/

namespace PlanCompiler.Isolate

variable {σ α : Type} {compiler : Compiler σ α} {isolate after : Isolate compiler}

/-! ## Histories -/

/-- A call and what came of it. -/
structure Entry where
  /-- The call. -/
  call : Call
  /-- What it yielded. -/
  outcome : Except IsolateError Reply

namespace Entry

/-- The call replaces or removes the plan, and with it everything that there is. -/
def setsPlan (entry : Entry) : Bool :=
  match entry.call with
  | .ingest _ | .install _ | .release => true
  | .generateNumbers .. | .generate _ | .compile | .execute _ => false

/-- The call only removes the plan: it is a release, or it was to ingest a plan and failed. -/
def removesPlan (entry : Entry) : Bool :=
  match entry.call with
  | .ingest _ => ¬ entry.outcome.isOk
  | .release => true
  | .install _ | .generateNumbers .. | .generate _ | .compile | .execute _ => false

/-- A source has been generated. -/
def generates (entry : Entry) : Bool :=
  entry.call.isGeneration && entry.outcome.isOk

/-- The source has been compiled. -/
def compiles (entry : Entry) : Bool :=
  match entry.call with
  | .compile => entry.outcome.isOk
  | .ingest _ | .install _ | .generateNumbers .. | .generate _ | .execute _ | .release => false

/-- A call that generates a source sets no plan. -/
theorem setsPlan_of_generates {entry : Entry} (generates : entry.generates = true) :
    entry.setsPlan = false := by
  obtain ⟨call, outcome⟩ := entry
  cases call with
  | generateNumbers | generate | compile | execute => rfl
  | ingest | install | release => cases generates

/-- A call that compiles sets no plan. -/
theorem setsPlan_of_compiles {entry : Entry} (compiles : entry.compiles = true) :
    entry.setsPlan = false := by
  obtain ⟨call, outcome⟩ := entry
  cases call with
  | generateNumbers | generate | compile | execute => rfl
  | ingest | install | release => cases compiles

/-- A call that compiles generates no source. -/
theorem generates_of_compiles {entry : Entry} (compiles : entry.compiles = true) :
    entry.generates = false := by
  obtain ⟨call, outcome⟩ := entry
  cases call with
  | ingest | install | compile | execute | release => rfl
  | generateNumbers | generate => cases compiles

end Entry

/-- The calls that an isolate has taken since it was created, the last one first. Between two
calls the state of the compiler may change. -/
inductive Ran : List Entry → Isolate compiler → Prop where
  | created {makeDirectory : String → Except String Unit} {config : Config} {workshop : σ}
      {isolate : Isolate compiler} (made : create makeDirectory config workshop = .ok isolate) :
    Ran [] isolate
  | called {history : List Entry} {isolate : Isolate compiler} (call : Call)
      (before : Ran history isolate) :
    Ran (⟨call, (call.perform isolate).1⟩ :: history) (call.perform isolate).2
  | interfered {history : List Entry} {isolate : Isolate compiler} (workshop : σ)
      (before : Ran history isolate) :
    Ran history { isolate with workshop }

section

variable (history : List Entry)

/-- The last call that replaced or removed the plan. -/
def lastPlan? : Option Entry := history.find? Entry.setsPlan

/-- The calls since then. -/
def sincePlan : List Entry := history.takeWhile (¬ ·.setsPlan)

/-- Those of them since a source was last generated. -/
def sinceSource : List Entry := (sincePlan history).takeWhile (¬ ·.generates)

/-- No call has left a plan: none was to do so, or the last one has only removed it. -/
def LacksPlan : Prop :=
  lastPlan? history = none ∨ ∃ last, lastPlan? history = some last ∧ last.removesPlan = true

/-- No call has left a source: there was no call to set a plan, or no source has been generated
since. -/
def LacksSource : Prop :=
  lastPlan? history = none ∨ ∀ entry ∈ sincePlan history, entry.generates = false

/-- No call has left an artifact: there is no source, or it has not been compiled since. -/
def LacksArtifact : Prop :=
  LacksSource history ∨ ∀ entry ∈ sinceSource history, entry.compiles = false

end

section

variable {entry : Entry} {history : List Entry}

/-- A call that sets the plan is the last one to do so. -/
theorem lastPlan?_of_setsPlan (sets : entry.setsPlan = true) :
    lastPlan? (entry :: history) = some entry :=
  List.find?_cons_of_pos sets

/-- Any other call leaves the last one that set the plan. -/
theorem lastPlan?_of_not_setsPlan (keeps : entry.setsPlan = false) :
    lastPlan? (entry :: history) = lastPlan? history :=
  List.find?_cons_of_neg (by simp [keeps])

/-- No call has followed one that just set the plan. -/
theorem sincePlan_of_setsPlan (sets : entry.setsPlan = true) : sincePlan (entry :: history) = [] :=
  List.takeWhile_cons_of_neg (by simp [sets])

/-- Any other call is one since the plan was set. -/
theorem sincePlan_of_not_setsPlan (keeps : entry.setsPlan = false) :
    sincePlan (entry :: history) = entry :: sincePlan history :=
  List.takeWhile_cons_of_pos (by simp [keeps])

/-- Behind a call that sets the plan, there is none exactly if the call removed it. -/
theorem lacksPlan_of_setsPlan (sets : entry.setsPlan = true) :
    LacksPlan (entry :: history) ↔ entry.removesPlan = true := by
  simp [LacksPlan, lastPlan?_of_setsPlan sets]

/-- Any other call leaves whether there is a plan. -/
theorem lacksPlan_of_not_setsPlan (keeps : entry.setsPlan = false) :
    LacksPlan (entry :: history) ↔ LacksPlan history := by
  rw [LacksPlan, lastPlan?_of_not_setsPlan keeps, LacksPlan]

/-- Behind a call that sets the plan, there is no source. -/
theorem lacksSource_of_setsPlan (sets : entry.setsPlan = true) :
    LacksSource (entry :: history) := by
  simp [LacksSource, sincePlan_of_setsPlan sets]

/-- A call that neither sets the plan nor generates leaves whether there is a source. -/
theorem lacksSource_of_not_generates (keeps : entry.setsPlan = false)
    (generates : entry.generates = false) :
    LacksSource (entry :: history) ↔ LacksSource history := by
  simp [LacksSource, lastPlan?_of_not_setsPlan keeps, sincePlan_of_not_setsPlan keeps, generates]

/-- Behind a call that generates, there is a source if any plan was set. -/
theorem lacksSource_of_generates (generates : entry.generates = true) :
    LacksSource (entry :: history) ↔ lastPlan? history = none := by
  have keeps := Entry.setsPlan_of_generates generates
  simp [LacksSource, lastPlan?_of_not_setsPlan keeps, sincePlan_of_not_setsPlan keeps, generates]

/-- Behind a call that neither sets the plan nor generates, there is no artifact exactly if there is
no source, or none of the calls since then compiled it, this one included. -/
theorem lacksArtifact_of_not_generates (keeps : entry.setsPlan = false)
    (generates : entry.generates = false) :
    LacksArtifact (entry :: history) ↔
      LacksSource history ∨
        entry.compiles = false ∧ ∀ e ∈ sinceSource history, e.compiles = false := by
  rw [LacksArtifact, lacksSource_of_not_generates keeps generates, sinceSource,
    sincePlan_of_not_setsPlan keeps, List.takeWhile_cons_of_pos (by simp [generates]),
    List.forall_mem_cons, sinceSource]

/-- Behind a call that generates, there is no artifact. -/
theorem lacksArtifact_of_generates (generates : entry.generates = true) :
    LacksArtifact (entry :: history) := by
  have keeps := Entry.setsPlan_of_generates generates
  simp [LacksArtifact, sinceSource, sincePlan_of_not_setsPlan keeps, generates]

end

/-! ## The products that there are -/

/-- The calls tell which products an isolate has. -/
structure Recorded (history : List Entry) (isolate : Isolate compiler) : Prop where
  plan : isolate.plan = none ↔ LacksPlan history
  source : isolate.source = none ↔ LacksSource history
  artifact : isolate.artifact = none ↔ LacksArtifact history

namespace Recorded

variable {entry : Entry} {history : List Entry}

/-- A call that replaces or removes the plan leaves nothing else. -/
theorem of_setsPlan (sets : entry.setsPlan = true)
    (plan : after.plan = none ↔ entry.removesPlan = true) (source : after.source = none)
    (artifact : after.artifact = none) : Recorded (entry :: history) after where
  plan := plan.trans (lacksPlan_of_setsPlan sets).symm
  source := iff_of_true source (lacksSource_of_setsPlan sets)
  artifact := iff_of_true artifact (.inl (lacksSource_of_setsPlan sets))

/-- A call that makes and removes nothing leaves the products as they are. -/
theorem of_idle (recorded : Recorded history isolate) (keeps : entry.setsPlan = false)
    (generates : entry.generates = false) (compiles : entry.compiles = false)
    (plan : after.plan = isolate.plan) (source : after.source = isolate.source)
    (artifact : after.artifact = isolate.artifact) : Recorded (entry :: history) after where
  plan := by rw [plan, lacksPlan_of_not_setsPlan keeps, recorded.plan]
  source := by rw [source, lacksSource_of_not_generates keeps generates, recorded.source]
  artifact := by
    rw [artifact, lacksArtifact_of_not_generates keeps generates, recorded.artifact, LacksArtifact]
    simp only [compiles, true_and]

/-- A new source takes the place of the former one and of the artifact. -/
theorem of_generates (recorded : Recorded history isolate) (generates : entry.generates = true)
    (installed : isolate.plan ≠ none) (plan : after.plan = isolate.plan)
    (source : after.source ≠ none) (artifact : after.artifact = none) :
    Recorded (entry :: history) after where
  plan := by
    rw [plan, lacksPlan_of_not_setsPlan (Entry.setsPlan_of_generates generates), recorded.plan]
  source := by
    refine iff_of_false source fun lacks => ?_
    -- without a call to set the plan there would not have been one to generate from
    exact installed (recorded.plan.2 (.inl ((lacksSource_of_generates generates).1 lacks)))
  artifact := iff_of_true artifact (lacksArtifact_of_generates generates)

/-- A new artifact takes the place of the former one. -/
theorem of_compiles (recorded : Recorded history isolate) (compiles : entry.compiles = true)
    (generated : isolate.source ≠ none) (plan : after.plan = isolate.plan)
    (source : after.source = isolate.source) (artifact : after.artifact ≠ none) :
    Recorded (entry :: history) after := by
  have keeps := Entry.setsPlan_of_compiles compiles
  have generates := Entry.generates_of_compiles compiles
  refine ⟨?_, ?_, iff_of_false artifact fun lacks => ?_⟩
  · rw [plan, lacksPlan_of_not_setsPlan keeps, recorded.plan]
  · rw [source, lacksSource_of_not_generates keeps generates, recorded.source]
  · rcases (lacksArtifact_of_not_generates keeps generates).1 lacks with noSource | ⟨fails, -⟩
    · exact generated (recorded.source.2 noSource)
    · cases compiles.symm.trans fails

end Recorded

/-- The calls that ask for a source neither set a plan nor compile. -/
theorem Call.idle_of_isGeneration {call : Call} (generation : call.isGeneration = true)
    (outcome : Except IsolateError Reply) :
    Entry.setsPlan ⟨call, outcome⟩ = false ∧ Entry.compiles ⟨call, outcome⟩ = false := by
  cases call with
  | generateNumbers | generate => exact ⟨rfl, rfl⟩
  | ingest | install | compile | execute | release => cases generation

/-- A call with a request asks for a source. -/
theorem Call.isGeneration_of_request? {call : Call} {request : Request}
    (asked : call.request? = .ok (some request)) : call.isGeneration = true := by
  cases call with
  | generateNumbers | generate => rfl
  | ingest | install | compile | execute | release => cases asked

/-- A step that does not end in an abnormal run adds to the calls what it changes. -/
theorem Step.recorded {call : Call} {outcome : Except IsolateError Reply} {history : List Entry}
    (recorded : isolate.poisoned = false → Recorded history isolate)
    (step : Step isolate call outcome after) (running : after.poisoned = false) :
    Recorded (⟨call, outcome⟩ :: history) after := by
  -- in the steps of a poisoned isolate, and in the one that poisons it, the mark is set afterwards
  cases step with
  | release => exact .of_setsPlan rfl (iff_of_true rfl rfl) rfl (releaseArtifact_artifact isolate)
  | poisoned marked => cases marked.symm.trans running
  | notPlan => exact .of_setsPlan rfl (iff_of_true rfl rfl) rfl (releaseArtifact_artifact isolate)
  | ingested | installed =>
    exact .of_setsPlan rfl (iff_of_false nofun nofun) rfl (releaseArtifact_artifact isolate)
  | noPlan _ generation | unsupported _ generation =>
    obtain ⟨keeps, compiles⟩ := Call.idle_of_isGeneration generation _
    exact (recorded running).of_idle keeps (Bool.and_false _) compiles rfl rfl rfl
  | generated unmarked asked installed =>
    refine (recorded unmarked).of_generates ?_ ?_ (releaseArtifact_plan isolate) nofun
      (releaseArtifact_artifact isolate)
    · exact (Bool.and_true _).trans (Call.isGeneration_of_request? asked)
    · rw [installed]
      exact nofun
  | noSource | noArtifact => exact (recorded running).of_idle rfl rfl rfl rfl rfl rfl
  | notCompiled unmarked | notRun unmarked | executed unmarked =>
    exact (recorded unmarked).of_idle rfl rfl rfl rfl rfl rfl
  | compiled unmarked generated =>
    refine (recorded unmarked).of_compiles rfl ?_ (releaseArtifact_plan _)
      (releaseArtifact_source _) nofun
    rw [generated]
    exact nofun
  | fault => cases running

/-- As long as no run has ended abnormally, the calls tell which products there are. -/
theorem recorded_of_ran {history : List Entry} (ran : Ran history isolate)
    (running : isolate.poisoned = false) : Recorded history isolate := by
  induction ran with
  | created made =>
    rw [eq_of_create made]
    exact ⟨iff_of_true rfl (.inl rfl), iff_of_true rfl (.inl rfl),
      iff_of_true rfl (.inl (.inl rfl))⟩
  | called call before recorded => exact (step_perform _ call).recorded recorded running
  | interfered workshop before recorded =>
    exact ⟨(recorded running).plan, (recorded running).source, (recorded running).artifact⟩

/-! ## The calls that fail -/

section

variable (running : isolate.poisoned = false)

include running

/-- Generating succeeds if there is a plan. -/
theorem generate_of_plan {plan : Plan} (installed : isolate.plan = some plan) (request : Request) :
    (isolate.generate request).1 = .ok () := by
  obtain ⟨source, lowered, -⟩ := plan.yields_generate request isolate.config.batchSize
  simp [generate, running, installed, lowered]

/-- Generating by numbers fails with a plan exactly if the numbers are refused. -/
theorem generateNumbers_of_plan {plan : Plan} (installed : isolate.plan = some plan)
    (stage flags : Int32) :
    (isolate.generateNumbers stage flags).1 =
      match Request.ofNumbers stage flags with
      | .error refusal => .error (.unsupported stage flags (.refused refusal))
      | .ok _ => .ok () := by
  simp only [generateNumbers, running, installed, Bool.false_eq_true, if_false, Option.isNone_some]
  cases Request.ofNumbers stage flags with
  | error refusal => rfl
  | ok request => exact generate_of_plan running installed request

/-- Generating reports a missing plan exactly if there is none. -/
theorem generate_eq_noPlan_iff (request : Request) :
    (isolate.generate request).1 = .error .noPlan ↔ isolate.plan = none := by
  cases installed : isolate.plan with
  | none => simp [generate, running, installed]
  | some plan => simp [generate_of_plan running installed]

/-- Generating by numbers reports a missing plan exactly if there is none, whatever the numbers. -/
theorem generateNumbers_eq_noPlan_iff (stage flags : Int32) :
    (isolate.generateNumbers stage flags).1 = .error .noPlan ↔ isolate.plan = none := by
  cases installed : isolate.plan with
  | none => simp [generateNumbers, running, installed]
  | some plan =>
    rw [generateNumbers_of_plan running installed]
    split <;> simp

/-- Compiling reports a missing source exactly if there is none. -/
theorem compile_eq_noSource_iff : isolate.compile.1 = .error .noSource ↔ isolate.source = none := by
  cases generated : isolate.source with
  | none => simp [compile, running, generated]
  | some source =>
    simp only [compile, running, generated, Bool.false_eq_true, if_false]
    split <;> simp

/-- Executing reports a missing artifact exactly if there is none. -/
theorem execute_eq_noArtifact_iff (arguments : List String) :
    (isolate.execute arguments).1 = .error .noArtifact ↔ isolate.artifact = none := by
  cases compiled : isolate.artifact with
  | none => simp [execute, running, compiled]
  | some artifact =>
    simp only [execute, running, compiled, Bool.false_eq_true, if_false]
    split
    · simp
    · simp [IsolateError.ofRun]
    · rename_i error _ _ _
      cases error <;> simp [IsolateError.ofRun]

end

/-- Which calls fail for want of a product is told by the calls before, as long as no run has ended
abnormally. A call for a source fails for no other reason than that its numbers stand for no
request. -/
theorem missing_iff_of_ran {history : List Entry} (ran : Ran history isolate)
    (running : isolate.poisoned = false) :
    (∀ stage flags,
      (isolate.generateNumbers stage flags).1 = .error .noPlan ↔ LacksPlan history) ∧
    (∀ request, (isolate.generate request).1 = .error .noPlan ↔ LacksPlan history) ∧
    (isolate.compile.1 = .error .noSource ↔ LacksSource history) ∧
    (∀ arguments, (isolate.execute arguments).1 = .error .noArtifact ↔ LacksArtifact history) ∧
    (isolate.plan ≠ none → ∀ stage flags error,
      (isolate.generateNumbers stage flags).1 = .error error ↔
        ∃ refusal, Request.ofNumbers stage flags = .error refusal ∧
          error = .unsupported stage flags (.refused refusal)) := by
  -- the products at hand are the ones that the history leaves
  have recorded := recorded_of_ran ran running
  refine ⟨fun stage flags => ?_, fun request => ?_, ?_, fun arguments => ?_,
    fun present stage flags error => ?_⟩
  · rw [generateNumbers_eq_noPlan_iff running, recorded.plan]
  · rw [generate_eq_noPlan_iff running, recorded.plan]
  · rw [compile_eq_noSource_iff running, recorded.source]
  · rw [execute_eq_noArtifact_iff running, recorded.artifact]
  · obtain ⟨plan, installed⟩ := Option.ne_none_iff_exists'.1 present
    rw [generateNumbers_of_plan running installed]
    cases Request.ofNumbers stage flags with
    | error refusal => simp [eq_comm]
    | ok request => simp

/-- An isolate that has compiled a plan misses nothing, and refuses a flag of the other stage. -/
theorem missing_iff_of_ran_compiledLargeOrders :
    ∃ history, Ran history compiledLargeOrders ∧ compiledLargeOrders.poisoned = false ∧
      compiledLargeOrders.plan ≠ none ∧ ¬ LacksPlan history ∧ ¬ LacksSource history ∧
      ¬ LacksArtifact history ∧
      ∃ refusal, Request.ofNumbers 0 8 = .error refusal ∧
        (compiledLargeOrders.generateNumbers 0 8).1 =
          .error (.unsupported 0 8 (.refused refusal)) := by
  have created : Ran []
      ({ config := .standard "/tmp", workshop := {} } : Isolate StandIn.compiler) :=
    @Ran.created _ _ _ (fun _ => .ok ()) _ _ _ rfl
  have ran :=
    ((created.called (.install .largeOrders)).called (.generateNumbers 1 8)).called .compile
  have running : compiledLargeOrders.poisoned = false := by rfl
  have present : compiledLargeOrders.plan ≠ none := by exact nofun
  obtain ⟨plan, -, source, artifact, refused⟩ := missing_iff_of_ran ran running
  -- all three products are at hand, so none of the calls that need them misses one
  refine ⟨_, ran, running, present, mt (plan 1 8).2 ?_, mt source.2 ?_, mt (artifact []).2 ?_,
    _, rfl, (refused present 0 8 _).2 ⟨_, rfl, rfl⟩⟩
  all_goals exact nofun

end PlanCompiler.Isolate
