import PlanCompiler.Lowering.Batch
import PlanCompiler.Lowering.Scalar
import PlanCompiler.Program.Support
import PlanCompiler.Request
import PlanCompiler.VectorSize

/-!
# The generated program

`Plan.generate` lowers a plan at the stage and with the flags of a request, and puts the parts
together to one program: the fixed part, the definitions of the plan, and the function
`run_main`. This function declares all variables, reads its arguments, loads the tables, runs the
pipelines, and releases all memory behind the label `kiln_done`, to which every failure leads. A
program can also be compiled to stand alone; it then has a function `main`.
-/

namespace PlanCompiler

/-- The function that every program defines. -/
def entryPoint : String := "run_main"

/-- The macro that makes a program stand alone. -/
def standaloneMacro : String := "KILN_STANDALONE"

/-- A lowered plan. -/
structure Program where
  /-- The request that it was lowered for. -/
  request : Request
  /-- Directory of the tables. -/
  database : String
  /-- Number of rows in a batch. -/
  vectorSize : Nat
  /-- What the pipelines need. -/
  sections : Sections
  /-- The pipelines. -/
  body : List Statement

namespace Program

/-- The program checks bounds and faults. -/
def isChecked (request : Request) : Bool := ¬ request.has .elideChecks

/-- The lines before the definitions of the plan. -/
def preamble (program : Program) : List Line :=
  let checked := isChecked program.request
  Support.plainLines
      ["/* Generated by kiln: " ++ program.request.stage.name ++ " stage, flags " ++
        program.request.flags.text ++ " */"] ++
    [.blank] ++ Support.includes ++ [.blank] ++ Support.statusCodes ++
    (if program.request.stage = .vectorised then
      Support.plainLines ["#define KILN_VECTOR_SIZE " ++ toString program.vectorSize]
    else []) ++
    [.blank] ++ Support.controlMacros ++ Support.checkMacro checked ++ [.blank] ++
    ((if checked then Support.checkedDivision else []) ++ Support.helpers).flatMap Definition.lines

/-- The variables that every `run_main` has. -/
def standardVariables (program : Program) : List Statement :=
  [.line "int kiln_status = KILN_OK;",
    .line ("const char *kiln_db = " ++ .literal program.database ++ ";"),
    .line "const char *kiln_out_path = NULL;",
    .line "FILE *kiln_out = stdout;",
    .line "int kiln_arg;"] ++
    (if program.request.has .countOnly then [.line "int64_t kiln_count = 0;"] else []) ++
    if program.request.has .profile then
      [.line "clock_t kiln_started = clock();", .line "clock_t kiln_loaded = kiln_started;"]
    else []

/-- Reads the arguments, opens the output and loads the tables. -/
def start (program : Program) : List Statement :=
  [.block (.control "for (kiln_arg = 0; kiln_arg < argc; kiln_arg++)")
      [.control "if (strcmp(argv[kiln_arg], \"--db\") == 0 && kiln_arg + 1 < argc)"
          "kiln_db = argv[++kiln_arg];",
        .control "else if (strcmp(argv[kiln_arg], \"--out\") == 0 && kiln_arg + 1 < argc)"
          "kiln_out_path = argv[++kiln_arg];"]] ++
    (if isChecked program.request then [.line "kiln_fault = 0;"] else []) ++
    .block (.control "if (kiln_out_path)")
      [.line "kiln_out = fopen(kiln_out_path, \"w\");",
        .block (.control "if (!kiln_out)")
          [.line "kiln_out = stdout;", .line "KILN_FAIL(KILN_IO_ERROR);"]] ::
    (program.sections.setup ++
      if program.request.has .profile then [.line "kiln_loaded = clock();"] else [])

/-- Reports after the pipelines. -/
def finish (program : Program) : List Statement :=
  (if program.request.has .countOnly then
      [.line "fprintf(kiln_out, \"%lld\\n\", (long long)kiln_count);"]
    else []) ++
    (if isChecked program.request then [.line "KILN_CHECK(!kiln_fault);"] else []) ++
    if program.request.has .profile then
      [.continued
          "fprintf(stderr, \"\x7b\\\"load\\\":%.3f,\\\"execution\\\":%.3f\x7d\\n\","
          ["(double)(kiln_loaded - kiln_started) * 1000.0 / CLOCKS_PER_SEC,",
            "(double)(clock() - kiln_loaded) * 1000.0 / CLOCKS_PER_SEC);"]]
    else []

/-- Releases the memory and closes the output. -/
def cleanup (program : Program) : List Statement :=
  program.sections.released.map (fun place => .line ("free(" ++ place ++ ");")) ++
    [.control "if (kiln_out != stdout)" "fclose(kiln_out);",
      .control "else" "fflush(kiln_out);",
      .line "return kiln_status;"]

/-- The function `run_main`. -/
def runMain (program : Program) : List Line :=
  Support.plainLines ["int " ++ entryPoint ++ "(int argc, char **argv)", "\x7b"] ++
    Statement.linesOfAll 1 program.standardVariables ++
    program.sections.declarations.map Declaration.line ++ [.blank] ++
    Statement.linesOfAll 1 program.start ++ [.blank] ++
    Statement.linesOfAll 1 program.body ++ [.blank] ++
    Statement.linesOfAll 1 program.finish ++
    Support.plainLines ["kiln_done:"] ++
    Statement.linesOfAll 1 program.cleanup ++
    Support.plainLines ["\x7d", ""]

/-- The function `main` of a program that stands alone. -/
def standaloneMain : List Line :=
  Support.plainLines
    ["#ifdef " ++ standaloneMacro, "int main(int argc, char **argv)", "\x7b",
      "\treturn " ++ entryPoint ++ "(argc, argv);", "\x7d", "#endif"]

/-- The lines of a program. -/
def lines (program : Program) : List Line :=
  program.preamble ++ program.sections.definitions.flatMap Definition.lines ++ program.runMain ++
    standaloneMain

/-- The text of a program. -/
def text (program : Program) : String := String.join (program.lines.map Line.text)

/-- What the compiler has to be told about a program, besides its defaults. -/
def compilerArguments (request : Request) : List String :=
  (match request.stage with
    | .scalar => ["-O2"]
    | .vectorised => ["-O3"]) ++
    if request.has .simdHints then ["-fopenmp-simd", "-ftree-vectorize"] else []

end Program

/-- The program of a plan. -/
def Plan.program (plan : Plan) (request : Request) (vectorSize : Nat) :
    Except LoweringError Program := do
  let checked := Program.isChecked request
  let countOnly := request.has .countOnly
  let (sections, body) ← match request.stage with
    | .scalar => plan.lowerScalar checked countOnly
    | .vectorised => plan.lowerVectorised checked countOnly (request.has .simdHints)
  .ok
    { request
      database := plan.database
      vectorSize := VectorSize.clamp vectorSize
      sections
      body }

/-- The text of a program and the request that it was generated for. -/
structure Source where
  /-- The request. -/
  request : Request
  /-- The text. -/
  text : String
deriving DecidableEq, Repr

/-- Arguments for the compiler of a source. -/
def Source.arguments (source : Source) : List String := Program.compilerArguments source.request

/-- Generates the program of a plan. -/
def Plan.generate (plan : Plan) (request : Request) (vectorSize : Nat) :
    Except LoweringError Source := do
  .ok { request, text := (← plan.program request vectorSize).text }

end PlanCompiler
