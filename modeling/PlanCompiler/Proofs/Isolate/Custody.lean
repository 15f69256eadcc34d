import PlanCompiler.Proofs.Isolate.Failure

/-!
# Custody of artifacts

An isolate keeps at most one of the artifacts that its compiler hands out. Every other one it has
given back, once: on a compilation the former artifact, on all other occasions the one that there
is. So what a compiler has handed out and what it has taken back differ by the artifact that the
isolate holds, after whatever calls, and not at all once the isolate is gone.

## Main definitions

* `Isolate.Balanced`: what was handed out is what was taken back and what is held;
* `Isolate.Turn`: a call on an isolate with a stand-in, or something that the stand-in is told.

## Main results

* `Isolate.Step.balanced`: a step keeps the balance;
* `Isolate.balanced_of_turns`: so it holds after all turns, and nothing is left to release.
-/

namespace PlanCompiler.Isolate

variable {σ α : Type} {compiler : Compiler σ α} {isolate before after : Isolate compiler}
  {ledger : compiler.Ledger}

/-- The artifacts that the compiler has handed out are those it has taken back and the one that
the isolate holds, if it holds one. -/
def Balanced (ledger : compiler.Ledger) (isolate : Isolate compiler) : Prop :=
  ledger.compiled isolate.workshop =
    ledger.released isolate.workshop + if isolate.artifact.isSome then 1 else 0

namespace Balanced

/-- The balance is one of the counts and of the artifact. -/
theorem congr (balanced : Balanced ledger before)
    (compiled : ledger.compiled after.workshop = ledger.compiled before.workshop)
    (released : ledger.released after.workshop = ledger.released before.workshop)
    (artifact : after.artifact = before.artifact) : Balanced ledger after := by
  rw [Balanced, compiled, released, artifact]
  exact balanced

/-- What the compiler does besides handing out and taking back does not matter. -/
theorem of_unchanged (balanced : Balanced ledger before)
    (unchanged : Unchanged ledger before after) : Balanced ledger after :=
  balanced.congr unchanged.compiled unchanged.released unchanged.artifact

/-- After a release nothing is held, and all that was handed out has been taken back. -/
theorem of_release (balanced : Balanced ledger isolate) :
    ledger.compiled isolate.release.workshop = ledger.released isolate.release.workshop := by
  have emptied := emptied_release ledger isolate
  rw [emptied.compiled, emptied.released]
  exact balanced

/-- Giving the artifact back keeps the balance, whatever becomes of the other products. -/
theorem releaseArtifact (balanced : Balanced ledger isolate)
    (workshop : after.workshop = isolate.releaseArtifact.workshop)
    (artifact : after.artifact = none) : Balanced ledger after := by
  rw [Balanced, workshop, artifact]
  exact balanced.of_release

end Balanced

/-- A compilation gives the former artifact back when the new one has been handed out. -/
theorem balanced_of_compile {source : Source} {artifact : α} {workshop : σ}
    (balanced : Balanced ledger isolate)
    (made : compiler.compile isolate.config source isolate.workshop = (.ok artifact, workshop)) :
    Balanced ledger
      { ({ isolate with workshop } : Isolate compiler).releaseArtifact with
        artifact := some artifact } := by
  have compiled := ledger.compiled_compile isolate.config source isolate.workshop
  have released := ledger.released_compile isolate.config source isolate.workshop
  rw [made] at compiled released
  have emptied := emptied_release ledger { isolate with workshop }
  show ledger.compiled (Isolate.release { isolate with workshop }).workshop =
    ledger.released (Isolate.release { isolate with workshop }).workshop + 1
  -- for a moment there are two artifacts, the one that is held and the new one
  calc ledger.compiled (Isolate.release { isolate with workshop }).workshop
    _ = ledger.compiled workshop := emptied.compiled
    _ = ledger.compiled isolate.workshop + 1 := compiled
    _ = ledger.released isolate.workshop + (if isolate.artifact.isSome then 1 else 0) + 1 := by
      rw [balanced]
    _ = ledger.released workshop + (if isolate.artifact.isSome then 1 else 0) + 1 := by
      rw [released]
    _ = ledger.released (Isolate.release { isolate with workshop }).workshop + 1 := by
      rw [emptied.released]

/-- Every step keeps the balance. -/
theorem Step.balanced {call : Call} {outcome : Except IsolateError Reply}
    (balanced : Balanced ledger isolate) (step : Step isolate call outcome after) :
    Balanced ledger after := by
  cases step with
  | poisoned | noPlan | unsupported | noSource | noArtifact => exact balanced
  | release | notPlan | ingested | installed | generated =>
    exact balanced.releaseArtifact rfl (releaseArtifact_artifact isolate)
  | notCompiled running generated failed =>
    exact balanced.of_unchanged (unchanged_of_compile ledger failed)
  | compiled running generated made => exact balanced_of_compile balanced made
  | notRun running compiled ordinary ran =>
    exact balanced.of_unchanged (unchanged_of_run ledger ran)
  | executed running compiled ran => exact balanced.of_unchanged (unchanged_of_run ledger ran)
  | fault running compiled ran =>
    -- the mark of an abnormal run is not part of the balance
    have unchanged := unchanged_of_run ledger ran
    exact balanced.congr unchanged.compiled unchanged.released rfl

/-! ## Isolates with a stand-in -/

/-- What happens to an isolate with a stand-in. -/
inductive Turn where
  /-- A call on the isolate. -/
  | perform (call : Call)
  /-- From now on compilations fail with a diagnosis, or do not. -/
  | setFailure (diagnosis : Option String)
  /-- The next run fails with an error, or does not. -/
  | setNextRun (error : Option RunError)

namespace Turn

/-- The isolate after a turn. -/
def take (isolate : Isolate StandIn.compiler) : Turn → Isolate StandIn.compiler
  | .perform call => (call.perform isolate).2
  | .setFailure failure => { isolate with workshop := { isolate.workshop with failure } }
  | .setNextRun nextRun => { isolate with workshop := { isolate.workshop with nextRun } }

/-- Every turn keeps the balance. -/
theorem balanced_take {isolate : Isolate StandIn.compiler}
    (balanced : Balanced StandIn.ledger isolate) (turn : Turn) :
    Balanced StandIn.ledger (turn.take isolate) := by
  cases turn with
  | perform call => exact (isolate.step_perform call).balanced balanced
  | setFailure | setNextRun => exact balanced.congr rfl rfl rfl

/-- So do several turns. -/
theorem balanced_foldl {isolate : Isolate StandIn.compiler}
    (balanced : Balanced StandIn.ledger isolate) (turns : List Turn) :
    Balanced StandIn.ledger (turns.foldl take isolate) := by
  induction turns generalizing isolate with
  | nil => exact balanced
  | cons turn turns ih => exact ih (balanced_take balanced turn)

end Turn

/-- After any turns on an isolate with a new stand-in, the artifacts handed out are those taken
back and the one that the isolate holds. Once the isolate is released, all of them have been taken
back. -/
theorem balanced_of_turns {makeDirectory : String → Except String Unit} {config : Config}
    {status : Int32} {isolate : Isolate StandIn.compiler}
    (made : create makeDirectory config { status } = .ok isolate) (turns : List Turn) :
    let after := turns.foldl Turn.take isolate
    (after.workshop.compiled =
        after.workshop.released + if after.artifact.isSome then 1 else 0) ∧
      after.release.workshop.compiled = after.workshop.compiled ∧
      after.release.workshop.released = after.workshop.compiled := by
  intro after
  -- nothing was compiled or released before the first turn
  have fresh : Balanced StandIn.ledger isolate := by
    rw [eq_of_create made]
    rfl
  have balanced : Balanced StandIn.ledger after := Turn.balanced_foldl fresh turns
  have compiled : after.release.workshop.compiled = after.workshop.compiled :=
    (emptied_release StandIn.ledger after).compiled
  exact ⟨balanced, compiled, balanced.of_release.symm.trans compiled⟩

/-- Two compilations, a failed one, and a run that is killed. -/
def recompiledTurns : List Turn :=
  [.perform (.install .largeOrders), .perform (.generateNumbers 1 8), .perform .compile,
    .perform .compile, .setFailure (some "boom"), .perform .compile,
    .setNextRun (some (.fault "killed by signal 11")), .perform (.execute []), .perform .compile]

/-- The second of two artifacts is held until the isolate is released. -/
theorem balanced_of_turns_recompiledTurns :
    ∃ isolate after : Isolate StandIn.compiler,
      create (fun _ => .ok ()) (.standard "/tmp") { status := 7 } = .ok isolate ∧
      recompiledTurns.foldl Turn.take isolate = after ∧ after.poisoned = true ∧
      after.workshop.compiled = 2 ∧ after.workshop.released = 1 ∧
      after.release.workshop.released = 2 := by
  let isolate : Isolate StandIn.compiler :=
    { config := .standard "/tmp", workshop := { status := 7 } }
  have made : create (fun _ => .ok ()) (.standard "/tmp") { status := 7 } = .ok isolate := rfl
  have poisoned : (recompiledTurns.foldl Turn.take isolate).poisoned = true := by rfl
  have compiled : (recompiledTurns.foldl Turn.take isolate).workshop.compiled = 2 := by rfl
  have held : (recompiledTurns.foldl Turn.take isolate).artifact.isSome = true := by rfl
  have balanced := balanced_of_turns made recompiledTurns
  refine ⟨isolate, _, made, rfl, ?_⟩
  -- from here on the state after the turns is only known by what has been found
  generalize recompiledTurns.foldl Turn.take isolate = after at *
  obtain ⟨balance, -, settled⟩ := balanced
  rw [if_pos held] at balance
  exact ⟨poisoned, compiled, by omega, by omega⟩

end PlanCompiler.Isolate
