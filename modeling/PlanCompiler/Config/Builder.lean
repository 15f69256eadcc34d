import PlanCompiler.Config.Basic

/-!
# Building configurations

A configuration is built by naming the settings that differ from the standard ones. A batch size is
brought into range as soon as it is named.
-/

namespace PlanCompiler.Config

/-- The settings that have been named so far. -/
structure Builder where
  workDirectory : Option String := none
  compiler : Option String := none
  arguments : List String := []
  artifact : Option ArtifactKind := none
  keepArtifacts : Bool := false
  warningsAsErrors : Bool := false
  vectorSize : Option Nat := none
deriving DecidableEq, Repr

namespace Builder

variable (builder : Builder)

def withWorkDirectory (directory : String) : Builder :=
  { builder with workDirectory := some directory }

def withCompiler (program : String) : Builder :=
  { builder with compiler := some program }

/-- Names one more argument for the compiler, after the earlier ones. -/
def withArgument (argument : String) : Builder :=
  { builder with arguments := builder.arguments ++ [argument] }

def withArtifact (kind : ArtifactKind) : Builder :=
  { builder with artifact := some kind }

def withKeepArtifacts (keep : Bool) : Builder :=
  { builder with keepArtifacts := keep }

def withWarningsAsErrors (enabled : Bool) : Builder :=
  { builder with warningsAsErrors := enabled }

def withVectorSize (n : Nat) : Builder :=
  { builder with vectorSize := some (VectorSize.clamp n) }

/-- The configuration with the settings that have been named, and the standard ones besides. -/
def build (temporary : String) : Config :=
  let standard := Config.standard temporary
  { workDirectory := builder.workDirectory.getD standard.workDirectory
    compiler := builder.compiler.getD standard.compiler
    arguments := builder.arguments
    artifact := builder.artifact.getD standard.artifact
    keepArtifacts := builder.keepArtifacts
    warningsAsErrors := builder.warningsAsErrors
    vectorSize := builder.vectorSize.getD standard.vectorSize }

/-- A batch size may as well be given to the configuration that is built. -/
theorem build_withVectorSize (n : Nat) (temporary : String) :
    (builder.withVectorSize n).build temporary = (builder.build temporary).withVectorSize n := rfl

end Builder

end PlanCompiler.Config
