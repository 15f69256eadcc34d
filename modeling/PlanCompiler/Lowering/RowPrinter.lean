import PlanCompiler.Code.Definition
import PlanCompiler.Lowering.Value

/-!
# The row printer of the generated program

A function with one parameter for each column of the result, which prints them on a line with a
comma and a space between them. Floats have two decimals.
-/

namespace PlanCompiler.RowPrinter

/-- Prints a parameter. -/
def printColumn (type : DataType) (parameter : String) : Code :=
  match type with
  | .int => "fprintf(out, \"%lld\", (long long)" ++ parameter ++ ");"
  | .float => "fprintf(out, \"%.2f\", " ++ parameter ++ ");"
  | .date => .help .printDate ["out", parameter] ++ ";"
  | .text => "fputs(" ++ parameter ++ ", out);"
  | .bool => "fputs(" ++ parameter ++ " ? \"true\" : \"false\", out);"

/-- The statements of the row printer. -/
def body (schema : Schema) : List Statement :=
  schema.zipIdx.flatMap (fun (type, k) =>
    (if k = 0 then [] else [.line "fputs(\", \", out);"]) ++ [.line (printColumn type s!"v{k}")]) ++
    [.line "fputc('\\n', out);"]

/-- The row printer for rows of a schema. -/
def definition (schema : Schema) : Definition :=
  .function [] "static void" .printRow
    ("FILE *out" :: schema.zipIdx.map fun (type, k) => type.representation ++ s!" v{k}")
    (body schema)

/-- A call that prints a row. -/
def print (row : List Code) : Statement :=
  .line (.call .printRow ("kiln_out" :: row) ++ ";")

end PlanCompiler.RowPrinter
