import PlanCompiler.Plan.Parser
import PlanCompiler.Plan.Printer
import PlanCompiler.Plan.Wire.Reader
import PlanCompiler.Program.Basic

/-!
# Command line

The command reads a plan and yields its program. Its options choose the form of the plan, the
stage and the flags. `CommandLine.run` is the whole command as a function of its arguments and of
the bytes that it reads.
-/

namespace PlanCompiler.CommandLine

/-- What the options say. -/
structure Options where
  /-- The plan is in binary form. -/
  binary : Bool := false
  /-- The stage. -/
  stage : Stage := .scalar
  /-- The flags. -/
  flags : Flags := ⟨0⟩
  /-- The plan is reported besides its program. -/
  printPlan : Bool := false
deriving DecidableEq, Repr

/-- Why the arguments are refused. -/
inductive UsageError where
  /-- There is no such option. -/
  | unknownOption (argument : String)
  /-- The option that chooses the stage is the last argument. -/
  | noStage
  /-- There is no stage of this name. -/
  | unknownStage (name : String)
  /-- Only one of the stages has hints. -/
  | hintsAtScalar
deriving DecidableEq, Repr

/-- The wording of a refusal. -/
def UsageError.message : UsageError → String
  | .unknownOption argument => "unexpected argument '" ++ argument ++ "' found"
  | .noStage => "a value is required for '--paradigm <PARADIGM>' but none was supplied"
  | .unknownStage name => "invalid value '" ++ name ++ "' for '--paradigm <PARADIGM>'"
  | .hintsAtScalar => "--simd requires --paradigm vectorised"

/-- The stage with a given name. -/
def stage? (name : String) : Option Stage := [.scalar, .vectorised].find? (·.name = name)

namespace Options

/-- The options with one more flag. -/
def withFlag (options : Options) (flag : Flags) : Options :=
  { options with flags := options.flags.union flag }

/-- Adds what arguments say. -/
def addArguments (options : Options) : List String → Except UsageError Options
  | [] =>
    if options.stage = .scalar ∧ options.flags.contains .simdHints then .error .hintsAtScalar
    else .ok options
  | "--binary" :: rest => addArguments { options with binary := true } rest
  | "--print-plan" :: rest => addArguments { options with printPlan := true } rest
  | "--count" :: rest => addArguments (options.withFlag .countOnly) rest
  | "--elide-bounds-checks" :: rest => addArguments (options.withFlag .elideChecks) rest
  | "--profile" :: rest => addArguments (options.withFlag .profile) rest
  | "--simd" :: rest => addArguments (options.withFlag .simdHints) rest
  | ["--paradigm"] => .error .noStage
  | "--paradigm" :: name :: rest =>
    match stage? name with
    | some stage => addArguments { options with stage } rest
    | none => .error (.unknownStage name)
  | argument :: _ => .error (.unknownOption argument)

end Options

/-- Why there is no program. -/
inductive Failure where
  /-- The arguments are refused. -/
  | usage (error : UsageError)
  /-- The stage does not understand the flags. -/
  | request (error : RequestError)
  /-- A text plan has to be UTF-8. -/
  | notUtf8
  /-- The text is no plan. -/
  | text (error : TextError)
  /-- The bytes are no plan. -/
  | wire (error : Wire.DecodeError)
  /-- The plan has a date that cannot be printed. -/
  | noCalendarDate
  /-- The plan cannot be lowered. -/
  | lowering (error : LoweringError)
deriving DecidableEq, Repr

/-- The wording of a failure. -/
def Failure.message : Failure → String
  | .usage error => error.message
  | .request error => error.message
  | .notUtf8 => "plan is not UTF-8"
  | .text error => error.message
  | .wire error => error.message
  | .noCalendarDate => "plan has a date beyond the calendar"
  | .lowering error => error.message

/-- What a successful command yields. -/
structure Result where
  /-- The program. -/
  program : String
  /-- What is said besides it. -/
  report : String
deriving DecidableEq, Repr

/-- The plan that bytes hold. -/
def readPlan (binary : Bool) (bytes : List UInt8) : Except Failure Plan :=
  if binary then (Plan.decode bytes).mapError .wire
  else
    match String.fromUTF8? ⟨bytes.toArray⟩ with
    | none => .error .notUtf8
    | some text => (Plan.parse text).mapError .text

/-- The printed plan and the arguments that its program is compiled with. -/
def report (plan : Plan) (source : Source) : Except Failure String := do
  let printed ← plan.print.mapError fun _ => .noCalendarDate
  .ok (printed ++ "\n/* compile with: " ++ " ".intercalate source.arguments ++ " */\n")

/-- The command on arguments and on the bytes that it reads. -/
def run (arguments : List String) (bytes : List UInt8) : Except Failure Result := do
  let options ← (Options.addArguments {} arguments).mapError .usage
  let request ← (Request.ofFlags options.stage options.flags).mapError .request
  let plan ← readPlan options.binary bytes
  let source ← (plan.generate request VectorSize.standard).mapError .lowering
  let report ← if options.printPlan then report plan source else .ok ""
  .ok { program := source.text, report }

end PlanCompiler.CommandLine
