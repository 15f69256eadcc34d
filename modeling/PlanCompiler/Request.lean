import PlanCompiler.Numeral

/-!
# Requests for a program

A request names the stage that lowers a plan and the flags that modify how. Each stage
understands some flags; a request with any other flag is refused, never narrowed. Requests also
come as two signed numbers: `Request.ofNumbers` then checks both.
-/

namespace PlanCompiler

/-- A set of flags, as a bit mask. -/
structure Flags where
  /-- The mask. -/
  bits : UInt32
deriving DecidableEq, Repr

namespace Flags

/-- The result is only counted. -/
def countOnly : Flags := ⟨1⟩

/-- Checks of bounds and fields are left out. -/
def elideChecks : Flags := ⟨2⟩

/-- The program reports how long loading and execution took. -/
def profile : Flags := ⟨4⟩

/-- The program has vectorisation hints and is compiled with matching arguments. -/
def simdHints : Flags := ⟨8⟩

/-- The flags of either set. -/
def union (a b : Flags) : Flags := ⟨a.bits ||| b.bits⟩

/-- All flags of the second set are in the first. -/
def contains (a b : Flags) : Bool := a.bits &&& b.bits = b.bits

/-- No flag is set. -/
def isEmpty (a : Flags) : Bool := a.bits = 0

/-- A mask in hexadecimal. -/
def text (a : Flags) : String := "0x" ++ Numeral.hex a.bits.toNat

end Flags

/-- A way of lowering plans. -/
inductive Stage where
  /-- Fused loops that handle one row at a time. -/
  | scalar
  /-- Loops over batches of rows, narrowed by selection vectors. -/
  | vectorised
deriving DecidableEq, Repr

namespace Stage

/-- Name of a stage. -/
def name : Stage → String
  | .scalar => "scalar"
  | .vectorised => "vectorised"

/-- Number of a stage. -/
def number : Stage → Int32
  | .scalar => 0
  | .vectorised => 1

/-- The flags that a stage understands. -/
def supported : Stage → Flags
  | .scalar => (Flags.countOnly.union .elideChecks).union .profile
  | .vectorised => ((Flags.countOnly.union .elideChecks).union .profile).union .simdHints

/-- The flags that a stage does not understand, among some. -/
def unsupported (stage : Stage) (flags : Flags) : Flags :=
  ⟨flags.bits &&& ~~~stage.supported.bits⟩

end Stage

/-- Why a request is refused. -/
inductive RequestError where
  /-- The number stands for no stage. -/
  | unknownStage (number : Int32)
  /-- Some flags are not understood by the stage. -/
  | unsupportedFlags (stage : Stage) (flags unsupported : Flags)
deriving DecidableEq, Repr

namespace RequestError

/-- The wording of a refusal. -/
def message : RequestError → String
  | .unknownStage number => "unknown stage " ++ toString number.toInt
  | .unsupportedFlags stage flags unsupported =>
    "flags " ++ flags.text ++ " are not supported by the " ++ stage.name ++
      " stage (unsupported bits " ++ unsupported.text ++ ")"

end RequestError

/-- A stage and flags that it understands. -/
structure Request where
  /-- The stage. -/
  stage : Stage
  /-- The flags. -/
  flags : Flags
  /-- The stage understands all of the flags. -/
  supported : stage.unsupported flags = ⟨0⟩
deriving DecidableEq, Repr

namespace Request

/-- The request for a stage with some flags. -/
def ofFlags (stage : Stage) (flags : Flags) : Except RequestError Request :=
  if h : stage.unsupported flags = ⟨0⟩ then .ok { stage, flags, supported := h }
  else .error (.unsupportedFlags stage flags (stage.unsupported flags))

/-- A flag of the request is set. -/
def has (request : Request) (flag : Flags) : Bool := request.flags.contains flag

end Request

/-- The stage that a number stands for. -/
def Stage.ofNumber (number : Int32) : Except RequestError Stage :=
  if number = Stage.scalar.number then .ok .scalar
  else if number = Stage.vectorised.number then .ok .vectorised
  else .error (.unknownStage number)

/-- The request that two numbers stand for. A negative number is no mask; all of its bits count
as not understood. -/
def Request.ofNumbers (stage flags : Int32) : Except RequestError Request := do
  let stage ← Stage.ofNumber stage
  let mask : Flags := ⟨flags.toUInt32⟩
  if flags < 0 then .error (.unsupportedFlags stage mask mask)
  else Request.ofFlags stage mask

end PlanCompiler
