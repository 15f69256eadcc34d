import PlanCompiler.Proofs.Isolate.Coherence

/-!
# Calls that fail

What a call leaves behind that ends with an error. Ingesting a buffer that is no plan empties the
isolate. A run that ends abnormally marks it. Every other call that fails changes nothing, and the
compiler has neither more nor fewer artifacts to look after than before.

## Main definitions

* `Compiler.Ledger`: counts of the artifacts that a compiler hands out and takes back;
* `Isolate.Unchanged`, `Isolate.Emptied`: what a failed call leaves behind.

## Main results

* `Isolate.effect_of_error`: the effect of every call that fails.
-/

namespace PlanCompiler

variable {σ α : Type} {compiler : Compiler σ α}

/-- Counts of the artifacts that a compiler hands out and takes back. Only a successful compilation
hands one out, and only a release takes one back. -/
structure Compiler.Ledger (compiler : Compiler σ α) where
  /-- Number of artifacts handed out. -/
  compiled : σ → Nat
  /-- Number of artifacts taken back. -/
  released : σ → Nat
  /-- A compilation hands an artifact out if it succeeds. -/
  compiled_compile : ∀ config source workshop,
    compiled (compiler.compile config source workshop).2 =
      compiled workshop + if (compiler.compile config source workshop).1.isOk then 1 else 0
  /-- A compilation takes no artifact back. -/
  released_compile : ∀ config source workshop,
    released (compiler.compile config source workshop).2 = released workshop
  /-- A run hands no artifact out. -/
  compiled_run : ∀ artifact arguments workshop,
    compiled (compiler.run artifact arguments workshop).2 = compiled workshop
  /-- A run takes no artifact back. -/
  released_run : ∀ artifact arguments workshop,
    released (compiler.run artifact arguments workshop).2 = released workshop
  /-- A release hands no artifact out. -/
  compiled_release : ∀ artifact workshop,
    compiled (compiler.release artifact workshop) = compiled workshop
  /-- A release takes one artifact back. -/
  released_release : ∀ artifact workshop,
    released (compiler.release artifact workshop) = released workshop + 1

/-- The counts of a stand-in. -/
def StandIn.ledger : StandIn.compiler.Ledger where
  compiled := StandIn.compiled
  released := StandIn.released
  compiled_compile config source workshop := by
    cases failure : workshop.failure <;>
      simp [StandIn.compiler, failure, Except.isOk, Except.toBool]
  released_compile config source workshop := by
    cases failure : workshop.failure <;> simp [StandIn.compiler, failure]
  compiled_run artifact arguments workshop := by
    cases nextRun : workshop.nextRun <;> simp [StandIn.compiler, nextRun]
  released_run artifact arguments workshop := by
    cases nextRun : workshop.nextRun <;> simp [StandIn.compiler, nextRun]
  compiled_release _ _ := rfl
  released_release _ _ := rfl

namespace Isolate

variable {isolate after : Isolate compiler} (ledger : compiler.Ledger)

/-- The products and the mark of an isolate are as before, and so are the counts of its
compiler. -/
structure Unchanged (before after : Isolate compiler) : Prop where
  plan : after.plan = before.plan
  source : after.source = before.source
  artifact : after.artifact = before.artifact
  poisoned : after.poisoned = before.poisoned
  compiled : ledger.compiled after.workshop = ledger.compiled before.workshop
  released : ledger.released after.workshop = ledger.released before.workshop

/-- An isolate has lost all of its products. The artifact that it had has been taken back, once. -/
structure Emptied (before after : Isolate compiler) : Prop where
  plan : after.plan = none
  source : after.source = none
  artifact : after.artifact = none
  poisoned : after.poisoned = before.poisoned
  compiled : ledger.compiled after.workshop = ledger.compiled before.workshop
  released : ledger.released after.workshop =
    ledger.released before.workshop + if before.artifact.isSome then 1 else 0

/-- What stays as it is is unchanged. -/
theorem Unchanged.refl (isolate : Isolate compiler) : Unchanged ledger isolate isolate :=
  ⟨rfl, rfl, rfl, rfl, rfl, rfl⟩

/-- A failed compilation only changes the state of the compiler, and no count. -/
theorem unchanged_of_compile {source : Source} {error : CompileError} {workshop : σ}
    (failed : compiler.compile isolate.config source isolate.workshop = (.error error, workshop)) :
    Unchanged ledger isolate { isolate with workshop } := by
  have compiled := ledger.compiled_compile isolate.config source isolate.workshop
  have released := ledger.released_compile isolate.config source isolate.workshop
  rw [failed] at compiled released
  exact ⟨rfl, rfl, rfl, rfl, compiled, released⟩

/-- A run only changes the state of the compiler, and no count. -/
theorem unchanged_of_run {artifact : α} {arguments : List String}
    {result : Except RunError Int32} {workshop : σ}
    (ran : compiler.run artifact arguments isolate.workshop = (result, workshop)) :
    Unchanged ledger isolate { isolate with workshop } := by
  have compiled := ledger.compiled_run artifact arguments isolate.workshop
  have released := ledger.released_run artifact arguments isolate.workshop
  rw [ran] at compiled released
  exact ⟨rfl, rfl, rfl, rfl, compiled, released⟩

/-- Releasing takes the artifact back if there is one. -/
theorem emptied_release (isolate : Isolate compiler) : Emptied ledger isolate isolate.release := by
  refine ⟨rfl, rfl, releaseArtifact_artifact isolate, releaseArtifact_poisoned isolate, ?_, ?_⟩
  all_goals
    rw [release, releaseArtifact]
    cases held : isolate.artifact with
    | none => rfl
    | some artifact => simp [ledger.compiled_release, ledger.released_release]

/-- The error of a run is a fault exactly if the run ended abnormally. -/
theorem ofRun_ne_fault {error : RunError} (ordinary : ∀ reason, error ≠ .fault reason)
    (reason : String) : IsolateError.ofRun error ≠ .notRun (.fault reason) := by
  cases error with
  | fault reason' => exact absurd rfl (ordinary reason')
  | argument | notStarted => exact nofun

/-- The effect of a call that fails. If it was to run the artifact and the run ended abnormally,
only the mark changes. If it was to ingest a plan, on an isolate that is not poisoned, then the
buffer is no plan, and the isolate loses all its products and gives the artifact back. Any other
call that fails changes nothing. -/
theorem effect_of_error {call : Call} {error : IsolateError}
    (failed : call.perform isolate = (.error error, after)) :
    ((∀ buffer, call = .ingest buffer → isolate.poisoned = true) →
      (∀ arguments reason, call = .execute arguments → error ≠ .notRun (.fault reason)) →
      Unchanged ledger isolate after) ∧
    (∀ arguments reason, call = .execute arguments → error = .notRun (.fault reason) →
      Unchanged ledger { isolate with poisoned := true } after) ∧
    (∀ buffer, call = .ingest buffer → isolate.poisoned = false →
      (∃ fault, Plan.decode buffer = .error fault ∧ error = .notPlan fault) ∧
        Emptied ledger isolate after) := by
  have step := isolate.step_perform call
  rw [failed] at step
  clear failed
  cases step with
  | poisoned marked =>
    refine ⟨fun _ _ => .refl ledger _, fun _ _ _ => nofun, fun _ _ running => ?_⟩
    cases running.symm.trans marked
  | notPlan running malformed =>
    refine ⟨fun kept => ?_, fun _ _ => nofun, ?_⟩
    · cases running.symm.trans (kept _ rfl)
    · rintro _ ⟨⟩ -
      exact ⟨⟨_, malformed, rfl⟩, emptied_release ledger _⟩
  | noPlan running generation | unsupported running generation =>
    -- such a call is neither a run nor an ingestion
    refine ⟨fun _ _ => .refl ledger _, ?_, ?_⟩
    · rintro _ _ rfl
      cases generation
    · rintro _ rfl
      cases generation
  | noSource => exact ⟨fun _ _ => .refl ledger _, fun _ _ => nofun, fun _ => nofun⟩
  | notCompiled running generated failed =>
    exact ⟨fun _ _ => unchanged_of_compile ledger failed, fun _ _ => nofun, fun _ => nofun⟩
  | noArtifact => exact ⟨fun _ _ => .refl ledger _, fun _ _ _ => nofun, fun _ => nofun⟩
  | notRun running compiled ordinary failed =>
    refine ⟨fun _ _ => unchanged_of_run ledger failed, fun _ reason _ abnormal => ?_,
      fun _ => nofun⟩
    exact absurd abnormal (ofRun_ne_fault ordinary reason)
  | fault running compiled failed =>
    refine ⟨fun _ ordinary => absurd rfl (ordinary _ _ rfl), fun _ _ _ _ => ?_, fun _ => nofun⟩
    -- up to the mark this is a run like any other
    have ran := unchanged_of_run ledger failed
    exact ⟨ran.plan, ran.source, ran.artifact, rfl, ran.compiled, ran.released⟩

/-- An isolate with an artifact whose compiler fails and whose next run is killed. -/
def failingLargeOrders : Isolate StandIn.compiler :=
  { compiledLargeOrders with
    workshop :=
      { compiledLargeOrders.workshop with
        failure := some "boom", nextRun := some (.fault "killed by signal 11") } }

/-- An isolate with live products that fails to compile, runs into a fault, and is given bytes that
are no plan. -/
theorem effect_of_error_failingLargeOrders :
    (Call.compile.perform failingLargeOrders =
        (.error (.notCompiled (.failed (.exited 1) "boom")), failingLargeOrders) ∧
      Unchanged StandIn.ledger failingLargeOrders failingLargeOrders) ∧
    (((Call.execute []).perform failingLargeOrders).1 =
        .error (.notRun (.fault "killed by signal 11")) ∧
      Unchanged StandIn.ledger { failingLargeOrders with poisoned := true }
        ((Call.execute []).perform failingLargeOrders).2) ∧
    (failingLargeOrders.poisoned = false ∧
      Emptied StandIn.ledger failingLargeOrders
        ((Call.ingest []).perform failingLargeOrders).2) := by
  have notCompiled : Call.compile.perform failingLargeOrders =
      (.error (.notCompiled (.failed (.exited 1) "boom")), failingLargeOrders) := rfl
  have abnormal : ((Call.execute []).perform failingLargeOrders).1 =
      .error (.notRun (.fault "killed by signal 11")) := rfl
  have malformed : ((Call.ingest []).perform failingLargeOrders).1 =
      .error (.notPlan { offset := 0, fault := .truncated "magic" }) := rfl
  -- the three calls are one for each of the effects that an error can have
  refine ⟨⟨notCompiled, ?_⟩, ⟨abnormal, ?_⟩, rfl, ?_⟩
  · exact (effect_of_error StandIn.ledger notCompiled).1 nofun nofun
  · exact (effect_of_error StandIn.ledger (Prod.ext abnormal rfl)).2.1 [] _ rfl rfl
  · exact ((effect_of_error StandIn.ledger (Prod.ext malformed rfl)).2.2 [] rfl rfl).2

end Isolate

end PlanCompiler
