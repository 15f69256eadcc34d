import PlanCompiler.Config.Basic
import PlanCompiler.Program.Basic

/-!
# Compilers

What an isolate asks of a compiler: to turn a source into an artifact, to run an artifact, and to
release it. A `Compiler σ α` does this on a state of type `σ`, for artifacts of type `α`, and may
fail in the ways that `CompileError` and `RunError` list.
-/

namespace PlanCompiler

/-- How a program ended. -/
inductive Ending where
  /-- It returned a status. -/
  | exited (status : Int32)
  /-- A signal ended it. -/
  | killed (signal : Nat)
deriving DecidableEq, Repr

/-- The description of an ending that is not a success. -/
def Ending.text : Ending → String
  | .exited status => "status " ++ toString status.toInt
  | .killed _ => "a signal"

/-- Why a source was not compiled. -/
inductive CompileError where
  /-- The build directory could not be prepared. -/
  | buildDirectory (path reason : String)
  /-- The compiler could not be started. -/
  | notStarted (program reason : String)
  /-- The compiler failed. -/
  | failed (ending : Ending) (diagnostics : String)
  /-- The compiler had something to say, which counts as a failure. -/
  | diagnosed (diagnostics : String)
  /-- The result could not be loaded. -/
  | notLoaded (path reason : String)
deriving DecidableEq, Repr

namespace CompileError

/-- The wording of a failure. -/
def message : CompileError → String
  | .buildDirectory path reason => "failed to prepare build directory " ++ path ++ ": " ++ reason
  | .notStarted program reason => "failed to run compiler \x60" ++ program ++ "\x60: " ++ reason
  | .failed ending diagnostics => "compiler exited with " ++ ending.text ++ ":\n" ++ diagnostics
  | .diagnosed diagnostics => "compiler reported diagnostics:\n" ++ diagnostics
  | .notLoaded path reason => "failed to load " ++ path ++ ": " ++ reason

/-- What the compiler printed, nothing if the failure happened outside of it. -/
def diagnostics : CompileError → String
  | .failed _ diagnostics | .diagnosed diagnostics => diagnostics
  | .buildDirectory .. | .notStarted .. | .notLoaded .. => ""

end CompileError

/-- Why an artifact did not run to its end. -/
inductive RunError where
  /-- An argument cannot be passed. -/
  | argument (index : Nat) (reason : String)
  /-- The program could not be started. -/
  | notStarted (path reason : String)
  /-- The program ended abnormally. -/
  | fault (reason : String)
deriving DecidableEq, Repr

namespace RunError

/-- The wording of a failure. -/
def message : RunError → String
  | .argument index reason => "invalid argument " ++ toString index ++ ": " ++ reason
  | .notStarted path reason => "failed to start " ++ path ++ ": " ++ reason
  | .fault reason => "program terminated abnormally: " ++ reason

end RunError

/-- A compiler with states `σ` and artifacts `α`. -/
structure Compiler (σ α : Type) where
  /-- Compiles a source as a configuration says. -/
  compile : Config → Source → σ → Except CompileError α × σ
  /-- Runs an artifact with arguments; the result is its exit status. -/
  run : α → List String → σ → Except RunError Int32 × σ
  /-- Gives up an artifact and all that it needed. -/
  release : α → σ → σ
  /-- The file of an artifact. -/
  path : α → String

end PlanCompiler
