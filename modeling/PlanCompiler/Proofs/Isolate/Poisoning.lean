import PlanCompiler.Proofs.Isolate.Failure

/-!
# Poisoned isolates

An isolate is marked by a run of its artifact that ends abnormally, and by nothing else: neither by
a run that was refused or could not be started, nor by a failure of any other call. No call removes
the mark. As long as it is there every call but a release is refused before it looks at its
arguments, and a release only empties the isolate.

## Main definitions

* `Isolate.Attempt`: a call together with the isolate that it is made on;
* `Isolate.Leads`: the attempts that lead from one isolate to another;
* `Isolate.Locked`: nothing can be done with an isolate but to empty it.

## Main results

* `Isolate.Step.poisoned_iff`: a step sets the mark only by a run that ends abnormally;
* `Isolate.Leads.poisoned_iff`: so do any attempts;
* `Isolate.poisoned_iff_and_locked_of_leads`: and from then on the isolate is locked.
-/

namespace PlanCompiler.Isolate

variable {σ α : Type} {compiler : Compiler σ α} {isolate after : Isolate compiler}

/-! ## Attempts -/

/-- A call and the isolate that it is made on. -/
structure Attempt (compiler : Compiler σ α) where
  /-- The isolate. -/
  isolate : Isolate compiler
  /-- The call. -/
  call : Call

/-- The attempt comes as far as to run the artifact, and the run ends abnormally. -/
structure Attempt.Faults (attempt : Attempt compiler) : Prop where
  /-- The isolate takes calls. -/
  running : attempt.isolate.poisoned = false
  /-- The artifact is run. -/
  run : ∃ arguments artifact reason, attempt.call = .execute arguments ∧
    attempt.isolate.artifact = some artifact ∧
    (compiler.run artifact arguments attempt.isolate.workshop).1 = .error (.fault reason)

/-- The attempts that lead from one isolate to another, the last one first. Between two of them the
state of the compiler may change. -/
inductive Leads (start : Isolate compiler) : List (Attempt compiler) → Isolate compiler → Prop where
  | start : Leads start [] start
  | called {attempts : List (Attempt compiler)} {isolate : Isolate compiler} (call : Call)
      (before : Leads start attempts isolate) :
    Leads start (⟨isolate, call⟩ :: attempts) (call.perform isolate).2
  | interfered {attempts : List (Attempt compiler)} {isolate : Isolate compiler} (workshop : σ)
      (before : Leads start attempts isolate) :
    Leads start attempts { isolate with workshop }

/-- Only a call that runs the artifact can end in an abnormal run. -/
theorem not_faults {call : Call} (other : ∀ arguments, call ≠ .execute arguments) :
    ¬ Attempt.Faults ⟨isolate, call⟩ := by
  rintro ⟨-, arguments, artifact, reason, runs, -⟩
  exact other arguments runs

/-- What an abnormal run of the artifact looks like. -/
theorem Attempt.Faults.run_eq {arguments : List String} {artifact : α}
    {result : Except RunError Int32} {workshop : σ}
    (faults : Attempt.Faults ⟨isolate, .execute arguments⟩)
    (compiled : isolate.artifact = some artifact)
    (ran : compiler.run artifact arguments isolate.workshop = (result, workshop)) :
    ∃ reason, result = .error (.fault reason) := by
  obtain ⟨-, _, _, reason, runs, held, ended⟩ := faults
  obtain rfl := Call.execute.inj runs
  obtain rfl := Option.some.inj (compiled.symm.trans held)
  exact ⟨reason, by rw [← ended, ran]⟩

/-! ## The mark -/

/-- A step sets the mark only by a run that ends abnormally, and never removes it. -/
theorem Step.poisoned_iff {call : Call} {outcome : Except IsolateError Reply}
    (step : Step isolate call outcome after) :
    after.poisoned = true ↔ isolate.poisoned = true ∨ Attempt.Faults ⟨isolate, call⟩ := by
  cases step with
  | poisoned marked => exact iff_of_true marked (.inl marked)
  | release | notPlan | ingested | installed | compiled =>
    -- what is released is not the mark
    rw [or_iff_left (not_faults (by nofun))]
    exact Bool.coe_iff_coe.2 (releaseArtifact_poisoned _)
  | noPlan _ generation | unsupported _ generation =>
    refine (or_iff_left (not_faults ?_)).symm
    rintro arguments rfl
    cases generation
  | generated _ asked =>
    simp only [releaseArtifact_poisoned]
    refine (or_iff_left (not_faults ?_)).symm
    rintro arguments rfl
    cases asked
  | noSource | notCompiled => exact (or_iff_left (not_faults (by nofun))).symm
  | noArtifact _ missing =>
    refine (or_iff_left ?_).symm
    rintro ⟨-, _, artifact, _, -, held, -⟩
    cases missing.symm.trans held
  | notRun _ compiled ordinary failed =>
    refine (or_iff_left fun faults => ?_).symm
    obtain ⟨reason, fault⟩ := faults.run_eq compiled failed
    exact ordinary reason (Except.error.inj fault)
  | fault running compiled failed =>
    exact iff_of_true rfl
      (.inr ⟨running, _, _, _, rfl, compiled, congrArg Prod.fst failed⟩)
  | executed _ compiled ran =>
    refine (or_iff_left fun faults => ?_).symm
    obtain ⟨reason, fault⟩ := faults.run_eq compiled ran
    cases fault

/-- Attempts set the mark only by a run that ends abnormally, and never remove it. -/
theorem Leads.poisoned_iff {start : Isolate compiler} {attempts : List (Attempt compiler)}
    (led : Leads start attempts isolate) :
    isolate.poisoned = true ↔ start.poisoned = true ∨ ∃ attempt ∈ attempts, attempt.Faults := by
  induction led with
  | start => simp
  | called call before ih =>
    rw [(step_perform _ call).poisoned_iff, ih, List.exists_mem_cons_iff, or_assoc]
    exact or_congr_right or_comm
  | interfered workshop before ih => exact ih

/-! ## Locked isolates -/

/-- Nothing can be done with an isolate but to empty it. -/
structure Locked (isolate : Isolate compiler) : Prop where
  /-- The mark is set. -/
  marked : isolate.poisoned = true
  /-- Every other call is refused, whatever its arguments, and changes nothing at all. -/
  refused : ∀ call : Call, call ≠ .release → call.perform isolate = (.error .poisoned, isolate)
  /-- A release succeeds. -/
  released : Call.release.perform isolate = (.ok .done, isolate.release)
  /-- It leaves no product behind. -/
  emptied : isolate.release.plan = none ∧ isolate.release.source = none ∧
    isolate.release.artifact = none
  /-- It gives the artifact back to the compiler, and does nothing else to it. -/
  settled : isolate.release.workshop =
    isolate.artifact.elim isolate.workshop (compiler.release · isolate.workshop)
  /-- It does not remove the mark. -/
  kept : isolate.release.poisoned = true

/-- A call on a poisoned isolate is refused. -/
theorem perform_of_poisoned {call : Call} (marked : isolate.poisoned = true)
    (other : call ≠ .release) : call.perform isolate = (.error .poisoned, isolate) := by
  have step := isolate.step_perform call
  generalize call.perform isolate = performed at step
  obtain ⟨outcome, after⟩ := performed
  -- every other step is one of an isolate that is not poisoned
  cases step with
  | poisoned => rfl
  | release => exact absurd rfl other
  | _ running => cases running.symm.trans marked

/-- A poisoned isolate is locked. -/
theorem locked_of_poisoned (marked : isolate.poisoned = true) : Locked isolate where
  marked := marked
  refused _ := perform_of_poisoned marked
  released := rfl
  emptied := ⟨rfl, rfl, releaseArtifact_artifact isolate⟩
  settled := by
    rw [release, releaseArtifact]
    cases isolate.artifact <;> rfl
  kept := (releaseArtifact_poisoned isolate).trans marked

/-- An isolate is poisoned exactly if one of the attempts since it was created has run the artifact
and the run ended abnormally. Whatever is attempted afterwards, it stays locked. -/
theorem poisoned_iff_and_locked_of_leads {makeDirectory : String → Except String Unit}
    {config : Config} {workshop : σ} {start : Isolate compiler}
    {attempts : List (Attempt compiler)}
    (made : create makeDirectory config workshop = .ok start)
    (led : Leads start attempts isolate) :
    (isolate.poisoned = true ↔ ∃ attempt ∈ attempts, attempt.Faults) ∧
      (isolate.poisoned = true → ∀ later after, Leads isolate later after → Locked after) := by
  have unmarked : ¬ start.poisoned = true := by
    rw [eq_of_create made]
    exact nofun
  refine ⟨led.poisoned_iff.trans (or_iff_right unmarked), fun marked later after continued => ?_⟩
  exact locked_of_poisoned (continued.poisoned_iff.2 (.inl marked))

/-- A run that is killed locks an isolate, also after it has been emptied. -/
theorem poisoned_iff_and_locked_of_leads_failingLargeOrders :
    ∃ (start : Isolate StandIn.compiler) (attempts later : List (Attempt StandIn.compiler)),
      create (fun _ => .ok ()) (.standard "/tmp") {} = .ok start ∧
      Leads start (⟨failingLargeOrders, .execute []⟩ :: attempts)
        ((Call.execute []).perform failingLargeOrders).2 ∧
      Attempt.Faults ⟨failingLargeOrders, .execute []⟩ ∧
      Leads ((Call.execute []).perform failingLargeOrders).2 later
        ((Call.execute []).perform failingLargeOrders).2.release ∧
      Locked ((Call.execute []).perform failingLargeOrders).2.release := by
  let start : Isolate StandIn.compiler := { config := .standard "/tmp", workshop := {} }
  have made : create (fun _ => .ok ()) (.standard "/tmp") {} = .ok start := rfl
  have none : Leads start [] start := .start
  have compiled :=
    ((none.called (.install .largeOrders)).called (.generateNumbers 1 8)).called .compile
  -- the failure switch is set between the calls, behind the back of the isolate
  have led := (compiled.interfered failingLargeOrders.workshop).called (.execute [])
  have faults : Attempt.Faults ⟨failingLargeOrders, .execute []⟩ :=
    ⟨rfl, [], "fake-vectorised-0.so", "killed by signal 11", rfl, by rfl, rfl⟩
  have failed : Leads ((Call.execute []).perform failingLargeOrders).2 []
      ((Call.execute []).perform failingLargeOrders).2 := .start
  have emptied := failed.called .release
  obtain ⟨marked, locked⟩ := poisoned_iff_and_locked_of_leads made led
  refine ⟨start, _, _, made, led, faults, emptied, ?_⟩
  exact locked (marked.2 ⟨_, List.mem_cons_self, faults⟩) _ _ emptied

end PlanCompiler.Isolate
