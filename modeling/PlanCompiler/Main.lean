import PlanCompiler.CommandLine

/-!
# The command

Reads a plan from the standard input and writes its program to the standard output. Reports and
failures go to the standard error.
-/

namespace PlanCompiler

/-- Everything that a stream still has, after what has been read. -/
partial def readBytes (input : IO.FS.Stream) (read : ByteArray) : IO ByteArray := do
  let chunk ← input.read 65536
  if chunk.isEmpty then return read else readBytes input (read ++ chunk)

end PlanCompiler

/-- Compiles the plan on the standard input as the arguments say. -/
def main (arguments : List String) : IO UInt32 := do
  let bytes ← PlanCompiler.readBytes (← IO.getStdin) ByteArray.empty
  match PlanCompiler.CommandLine.run arguments bytes.toList with
  | .ok result =>
    (← IO.getStderr).putStr result.report
    (← IO.getStdout).putStr result.program
    return 0
  | .error failure =>
    (← IO.getStderr).putStrLn ("Error: " ++ failure.message)
    return 1
