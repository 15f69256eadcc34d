import PlanCompiler.Isolate.Compiler

/-!
# A compiler that does not compile

`StandIn.compiler` hands out artifacts without compiling anything and counts what happens to them.
It can be told to fail: every compilation while a diagnosis is set, and the next run once. Its
artifacts are known by their path, which has the stage of the source and their number.
-/

namespace PlanCompiler

/-- What a stand-in has counted and what it has been told. -/
structure StandIn where
  /-- Number of artifacts handed out. -/
  compiled : Nat := 0
  /-- Number of runs. -/
  runs : Nat := 0
  /-- Number of artifacts released. -/
  released : Nat := 0
  /-- Exit status of every run. -/
  status : Int32 := 0
  /-- Compilations fail with this diagnosis. -/
  failure : Option String := none
  /-- The next run fails with this error. -/
  nextRun : Option RunError := none
deriving DecidableEq, Repr

namespace StandIn

/-- The path of an artifact. -/
def artifactPath (stage : Stage) (number : Nat) : String :=
  "fake-" ++ stage.name ++ "-" ++ toString number ++ ".so"

/-- The compiler. -/
def compiler : Compiler StandIn String where
  compile _ source state :=
    match state.failure with
    | some diagnostics => (.error (.failed (.exited 1) diagnostics), state)
    | none =>
      (.ok (artifactPath source.request.stage state.compiled),
        { state with compiled := state.compiled + 1 })
  run _ _ state :=
    match state.nextRun with
    | some error => (.error error, { state with nextRun := none })
    | none => (.ok state.status, { state with runs := state.runs + 1 })
  release _ state := { state with released := state.released + 1 }
  path artifact := artifact

end StandIn

end PlanCompiler
