import PlanCompiler.Config.Reader
import PlanCompiler.Isolate.Basic

/-!
# Handles

The interface of isolates for callers that only know numbers and strings of bytes. A handle holds
an isolate, a copy of the path of its artifact and the message of the last failed call. Every call
takes a handle that may be missing and yields a status code: zero on success, the code of an
`IsolateError`, or `Handle.noHandle`. Strings end before their first zero byte.
-/

namespace PlanCompiler

/-- What a caller holds of an isolate. -/
structure Handle {σ α : Type} (compiler : Compiler σ α) where
  /-- The isolate. -/
  isolate : Isolate compiler
  /-- Path of the artifact as the caller knows it. -/
  artifact : Option String := none
  /-- Message of the last call, if it failed. -/
  lastError : Option String := none

/-- The bytes that a caller passes as a plan. -/
inductive PlanBuffer where
  /-- No buffer, with a length. -/
  | absent (length : Nat)
  /-- A buffer. -/
  | bytes (contents : List UInt8)

namespace Handle

variable {σ α : Type} {compiler : Compiler σ α}

/-- The status code of a call without a handle, or without a place for one. -/
def noHandle : Int32 := -11

/-- The text of a string of bytes, which ends before the first zero byte. -/
def text? (bytes : List UInt8) : Option String :=
  String.fromUTF8? ⟨(bytes.takeWhile (· ≠ 0)).toArray⟩

/-- A message without zero characters. -/
def messageText (message : String) : String :=
  String.ofList (message.toList.map fun c => if c = '\x00' then ' ' else c)

/-- The path of an artifact as a string of bytes, empty if it has a zero character. -/
def pathText (path : String) : String :=
  if path.toList.contains '\x00' then "" else path

/-- Keeps the message of a call and gives its status code. -/
def record {β : Type} (result : Except IsolateError β) (handle : Handle compiler) :
    Int32 × Handle compiler :=
  match result with
  | .ok _ => (0, { handle with lastError := none })
  | .error error => (error.code, { handle with lastError := some (messageText error.message) })

/-- Creates an isolate for a configuration and puts its handle into a place, which holds a former
handle or none. Without a configuration the settings are the standard ones. A configuration that
cannot be read leaves the place as it is. -/
def create (temporary : String) (makeDirectory : String → Except String Unit) (workshop : σ)
    (config : Option (List UInt8)) (former : Option (Handle compiler)) :
    Int32 × Option (Handle compiler) :=
  let settings : Option Config := match config with
    | none => some (.standard temporary)
    | some bytes => (text? bytes).bind fun text => (Config.ofText temporary text).toOption
  match settings with
  | none => (-8, former)
  | some settings =>
    match Isolate.create makeDirectory settings workshop with
    | .ok isolate => (0, some { isolate })
    | .error error => (error.code, none)

/-- Ingests a plan. The path of the artifact is forgotten. -/
def plan (buffer : PlanBuffer) (handle : Handle compiler) : Int32 × Handle compiler :=
  let ingest (contents : List UInt8) :=
    let (result, isolate) := handle.isolate.ingest contents
    record result { handle with isolate, artifact := none }
  match buffer with
  | .absent 0 => ingest []
  | .absent _ => record (.error (.argument .noBuffer) : Except _ Unit) handle
  | .bytes contents => ingest contents

/-- Generates the source of the plan. On success the path of the artifact is forgotten. -/
def generate (stage flags : Int32) (handle : Handle compiler) : Int32 × Handle compiler :=
  match handle.isolate.generateNumbers stage flags with
  | (.ok (), isolate) =>
    record (.ok ()) { handle with isolate, artifact := none }
  | (.error error, isolate) => record (.error error : Except _ Unit) { handle with isolate }

/-- Compiles the source. On success the second result is the path of the artifact. -/
def compile (handle : Handle compiler) : Int32 × Option String × Handle compiler :=
  match handle.isolate.compile with
  | (.ok path, isolate) =>
    let path := pathText path
    let (code, handle) := record (.ok ()) { handle with isolate, artifact := some path }
    (code, some path, handle)
  | (.error error, isolate) =>
    let (code, handle) := record (.error error : Except _ Unit) { handle with isolate }
    (code, none, handle)

/-- The arguments for a program, from a list of strings of bytes that may be missing. -/
def arguments (count : Int32) (strings : Option (List (Option (List UInt8)))) :
    Except ArgumentFault (List String) :=
  if count < 0 then .error (.count count)
  else
    match strings with
    | none => if count = 0 then .ok [] else .error .noArguments
    | some strings =>
      ((strings.take count.toInt.toNat).zipIdx).mapM fun
        | (none, index) => .error (.noArgument index)
        | (some bytes, index) =>
          match text? bytes with
          | some text => .ok text
          | none => .error (.notUtf8 index)

/-- Runs the artifact. On success the second result is its exit status. -/
def runMain (count : Int32) (strings : Option (List (Option (List UInt8)))) (hasStatus : Bool)
    (handle : Handle compiler) : Int32 × Option Int32 × Handle compiler :=
  let fail (error : IsolateError) (handle : Handle compiler) :=
    let (code, handle) := record (.error error : Except _ Unit) handle
    (code, none, handle)
  if ¬ hasStatus then fail (.argument .noStatus) handle
  else
    match arguments count strings with
    | .error fault => fail (.argument fault) handle
    | .ok arguments =>
      match handle.isolate.execute arguments with
      | (.ok status, isolate) =>
        let (code, handle) := record (.ok ()) { handle with isolate }
        (code, some status, handle)
      | (.error error, isolate) => fail error { handle with isolate }

/-- The message of the last call on a handle, if it failed. -/
def lastMessage (handle : Option (Handle compiler)) : Option String :=
  handle.bind Handle.lastError

end Handle

end PlanCompiler
