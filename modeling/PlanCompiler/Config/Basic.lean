import PlanCompiler.VectorSize

/-!
# Configurations

Settings of an isolate. Every setting has a standard value. That of the work directory is the
directory for temporary files, which depends on the system and its variables.
-/

namespace PlanCompiler

/-- Form of a compiled program. -/
inductive ArtifactKind where
  /-- A library whose main function is called. -/
  | sharedLibrary
  /-- A program of its own. -/
  | executable
deriving DecidableEq, Repr

namespace ArtifactKind

/-- Every form. -/
def all : List ArtifactKind := [.sharedLibrary, .executable]

/-- Name of a form in configurations. -/
def name : ArtifactKind → String
  | .sharedLibrary => "shared_library"
  | .executable => "executable"

/-- The form with a given name. -/
def ofName? (name : String) : Option ArtifactKind := all.find? (·.name = name)

end ArtifactKind

/-- Settings of an isolate. -/
structure Config where
  /-- Directory in which build directories are created. -/
  workDirectory : String
  /-- Program that compiles. -/
  compiler : String := "cc"
  /-- Arguments for the compiler besides the generated ones. -/
  arguments : List String := []
  /-- Form of the compiled program. -/
  artifact : ArtifactKind := .sharedLibrary
  /-- Build directories stay after their artifact is released. -/
  keepArtifacts : Bool := false
  /-- Whatever the compiler reports counts as a failure. -/
  warningsAsErrors : Bool := false
  /-- Number of rows in a batch. -/
  vectorSize : Nat := VectorSize.standard
deriving DecidableEq, Repr

namespace Config

/-- The standard settings, with the directory for temporary files as the work directory. -/
def standard (temporary : String) : Config := { workDirectory := temporary }

/-- The configuration with another batch size, brought into range. -/
def withVectorSize (config : Config) (n : Nat) : Config :=
  { config with vectorSize := VectorSize.clamp n }

/-- The batch size that programs are generated with. -/
def batchSize (config : Config) : Nat := VectorSize.clamp config.vectorSize

/-- The settings by name, in their order. -/
inductive Field where
  | workDirectory
  | compiler
  | arguments
  | artifact
  | keepArtifacts
  | warningsAsErrors
  | vectorSize
deriving DecidableEq, Repr

namespace Field

/-- Every setting, in order. -/
def all : List Field :=
  [.workDirectory, .compiler, .arguments, .artifact, .keepArtifacts, .warningsAsErrors, .vectorSize]

/-- Name of a setting in a configuration text. -/
def name : Field → String
  | .workDirectory => "work_dir"
  | .compiler => "compiler"
  | .arguments => "compiler_args"
  | .artifact => "artifact"
  | .keepArtifacts => "keep_artifacts"
  | .warningsAsErrors => "warnings_as_errors"
  | .vectorSize => "vector_size"

/-- The setting with a given name. -/
def ofName? (name : String) : Option Field := all.find? (·.name = name)

end Field

end Config

end PlanCompiler
