import PlanCompiler.Isolate.Compiler
import PlanCompiler.Plan.Wire.Cursor

/-!
# Errors of isolates

Why a call on an isolate fails, with the wording and the status code of each cause. Status codes
are negative; zero is success.
-/

namespace PlanCompiler

/-- Why an argument of a call is rejected. -/
inductive ArgumentFault where
  /-- An argument of the program cannot be passed to it. -/
  | unusable (index : Nat) (reason : String)
  /-- A plan buffer is missing. -/
  | noBuffer
  /-- There is no place for the exit status. -/
  | noStatus
  /-- The number of arguments is negative. -/
  | count (n : Int32)
  /-- The list of arguments is missing. -/
  | noArguments
  /-- An argument is missing. -/
  | noArgument (index : Nat)
  /-- An argument is not UTF-8. -/
  | notUtf8 (index : Nat)
deriving DecidableEq, Repr

namespace ArgumentFault

/-- The wording of a fault. -/
def message : ArgumentFault → String
  | .unusable index reason => (RunError.argument index reason).message
  | .noBuffer => "null plan buffer"
  | .noStatus => "null status pointer"
  | .count n => "argc " ++ toString n.toInt
  | .noArguments => "null argv"
  | .noArgument index => "argv[" ++ toString index ++ "] is null"
  | .notUtf8 index => "argv[" ++ toString index ++ "] is not UTF-8"

end ArgumentFault

/-- Why a plan has no source. -/
inductive GenerationError where
  /-- The request is refused. -/
  | refused (error : RequestError)
  /-- The plan cannot be lowered. -/
  | notLowered (error : LoweringError)
deriving DecidableEq, Repr

/-- The wording of a generation error. -/
def GenerationError.message : GenerationError → String
  | .refused error => error.message
  | .notLowered error => error.message

/-- Why a call on an isolate fails. -/
inductive IsolateError where
  /-- The work directory cannot be created. -/
  | workDirectory (path reason : String)
  /-- The buffer is no plan. -/
  | notPlan (error : Wire.DecodeError)
  /-- There is no plan. -/
  | noPlan
  /-- There is no source. -/
  | noSource
  /-- There is no artifact. -/
  | noArtifact
  /-- No source is generated for the stage and the flags. -/
  | unsupported (stage flags : Int32) (error : GenerationError)
  /-- The source was not compiled. -/
  | notCompiled (error : CompileError)
  /-- An argument is rejected. -/
  | argument (fault : ArgumentFault)
  /-- The artifact did not run to its end. -/
  | notRun (error : RunError)
  /-- An earlier run ended abnormally. -/
  | poisoned
deriving DecidableEq, Repr

namespace IsolateError

/-- The error of a call that runs an artifact. -/
def ofRun : RunError → IsolateError
  | .argument index reason => .argument (.unusable index reason)
  | error => .notRun error

/-- The wording of an error. -/
def message : IsolateError → String
  | .workDirectory path reason =>
    "cannot create isolate work directory " ++ path ++ ": " ++ reason
  | .notPlan error =>
    "plan parse error at offset " ++ toString error.offset ++ ": " ++ error.fault.message
  | .noPlan => "no plan has been ingested"
  | .noSource => "no source has been generated"
  | .noArtifact => "no artifact has been compiled"
  | .unsupported stage flags error =>
    "unsupported stage " ++ toString stage.toInt ++ " with flags " ++
      (Flags.mk flags.toUInt32).text ++ ": " ++ error.message
  | .notCompiled error => "compilation failed: " ++ error.message
  | .argument fault => "invalid argument: " ++ fault.message
  | .notRun error => "execution fault: " ++ error.message
  | .poisoned => "isolate is poisoned by an earlier execution fault"

/-- The status code of an error. -/
def code : IsolateError → Int32
  | .workDirectory .. => -1
  | .notPlan _ => -2
  | .noPlan => -3
  | .unsupported .. => -4
  | .noSource => -5
  | .notCompiled _ => -6
  | .noArtifact => -7
  | .argument _ => -8
  | .notRun _ => -9
  | .poisoned => -10

end IsolateError

end PlanCompiler
