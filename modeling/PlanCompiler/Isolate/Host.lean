import PlanCompiler.Isolate.Compiler
import PlanCompiler.Text.Blank

/-!
# Compilers of a host

A `Host` says how directories, programs and libraries behave. `Host.compiler` compiles on it: each
compilation gets a build directory of its own in the work directory, the source is written there,
and the compiler program of the configuration is started on it. A shared library is loaded at
once; an executable is started for every run.
-/

namespace PlanCompiler

/-- How directories, programs and libraries behave. Reasons for failures are texts. -/
structure Host where
  /-- Creates a directory and those above it. -/
  makeDirectory : String → Except String Unit
  /-- Writes a file. -/
  writeFile : (path contents : String) → Except String Unit
  /-- Starts a program and waits for its end; the second result is what it reports. -/
  start : (program : String) → (arguments : List String) → Except String (Ending × String)
  /-- Loads a library. -/
  load : (path : String) → Except String Unit
  /-- Calls the main function of a library. -/
  call : (path : String) → (arguments : List String) → Int32
  /-- Name of the build directory with a number. -/
  buildName : Nat → String

/-- A file that a compiler program has made. -/
structure BuiltFile where
  /-- The file. -/
  path : String
  /-- Its form. -/
  kind : ArtifactKind
deriving DecidableEq, Repr

namespace Host

/-- A path below a directory. -/
def below (directory name : String) : String :=
  if directory = "" then name
  else if directory.endsWith "/" then directory ++ name
  else directory ++ "/" ++ name

/-- The arguments of the compiler program. -/
def compilerArguments (config : Config) (source : Source) (input output : String) : List String :=
  ["-std=c99", "-Wall"] ++
    (match config.artifact with
      | .sharedLibrary => ["-fPIC", "-shared"]
      | .executable => ["-D" ++ standaloneMacro]) ++
    source.arguments ++ config.arguments ++ ["-o", output, input, "-lm"]

/-- Name of the file that is made. -/
def outputName : ArtifactKind → String
  | .sharedLibrary => "query.so"
  | .executable => "query"

/-- A text has something else than blanks. -/
def isReport (text : String) : Bool := text.toList.any fun c => ¬ Text.isBlank c

/-- Compiles a source in a build directory. -/
def build (host : Host) (config : Config) (source : Source) (directory : String) :
    Except CompileError BuiltFile := do
  (host.makeDirectory directory).mapError (.buildDirectory directory)
  let input := below directory "query.c"
  (host.writeFile input source.text).mapError (.buildDirectory input)
  let output := below directory (outputName config.artifact)
  let (ending, diagnostics) ←
    (host.start config.compiler (compilerArguments config source input output)).mapError
      (.notStarted config.compiler)
  if ending ≠ .exited 0 then .error (.failed ending diagnostics)
  else if isReport diagnostics ∧ config.warningsAsErrors then .error (.diagnosed diagnostics)
  else do
    match config.artifact with
    | .sharedLibrary => (host.load output).mapError (.notLoaded output)
    | .executable => .ok ()
    .ok { path := output, kind := config.artifact }

/-- Runs a file that a compiler program has made. Arguments must not have a zero character. -/
def run (host : Host) (file : BuiltFile) (arguments : List String) : Except RunError Int32 :=
  match arguments.findIdx? fun argument => argument.toList.contains '\x00' with
  | some index => .error (.argument index "contains a NUL byte")
  | none =>
    match file.kind with
    | .sharedLibrary => .ok (host.call file.path arguments)
    | .executable => do
      let (ending, _) ← (host.start file.path arguments).mapError (.notStarted file.path)
      match ending with
      | .exited status => .ok status
      | .killed signal => .error (.fault ("killed by signal " ++ toString signal))

/-- The compiler of a host. Its state is the number of builds so far. -/
def compiler (host : Host) : Compiler Nat BuiltFile where
  compile config source builds :=
    (host.build config source (below config.workDirectory (host.buildName builds)), builds + 1)
  run file arguments builds := (host.run file arguments, builds)
  release _ builds := builds
  path file := file.path

/-- The reason that something does not exist. -/
def missing : String := "No such file or directory (os error 2)"

/-- The reason that directories cannot be created at or below a device. -/
def directoryFault? (path : String) : Option String :=
  if path.toList.contains '\x00' then some "file name contained an unexpected NUL byte"
  else match (path.splitOn "/").filter (· ≠ "") with
    | ["dev", "null"] => if path.startsWith "/" then some "File exists (os error 17)" else none
    | "dev" :: "null" :: _ =>
      if path.startsWith "/" then some "Not a directory (os error 20)" else none
    | _ => none

/-- A host with no programs but `true` and `false`, no libraries, and no directories at or below
the device `/dev/null`. -/
def bare (buildName : Nat → String) : Host where
  makeDirectory path :=
    match directoryFault? path with
    | some reason => .error reason
    | none => .ok ()
  writeFile _ _ := .ok ()
  start program arguments :=
    if (program :: arguments).any fun text => text.toList.contains '\x00' then
      .error "nul byte found in provided data"
    else if program = "true" then .ok (.exited 0, "")
    else if program = "false" then .ok (.exited 1, "")
    else .error missing
  load _ := .error "dlopen failed"
  call _ _ := 0
  buildName

end Host

end PlanCompiler
