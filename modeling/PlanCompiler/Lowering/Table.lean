import PlanCompiler.Lowering.Pipeline
import PlanCompiler.Lowering.Value
import PlanCompiler.Plan.Basic

/-!
# Tables in the generated program

Every scan gets a record with the columns it reads and a function that loads them from the file
of the table. Texts are collected in one arena; while it grows, its texts are known by their
offsets, which become pointers at the end. All tables are loaded before the pipelines run.
-/

namespace PlanCompiler

namespace Table

/-- The record of a scan. -/
def record (node : Nat) : Name := .ofNode .table node none

/-- The columns with their positions in the row. -/
def placed (columns : List ScanColumn) : List (ScanColumn × Nat) := columns.zipIdx

/-- Positions of the columns that have texts. -/
def textPositions (columns : List ScanColumn) : List Nat :=
  (placed columns).filterMap fun (column, k) => if column.type = .text then some k else none

/-- Number of the fields of a line up to the last one that is read. -/
def fieldCount (columns : List ScanColumn) : Nat :=
  (columns.map fun column => column.index.toNat + 1).foldl max 1

/-- The members of the record of a scan. -/
def members (columns : List ScanColumn) : List Member :=
  [.size "rows", .size "cap"] ++
    (placed columns).map (fun (column, k) => .buffer column.type.representation s!"c{k}") ++
    (textPositions columns).map (fun k => .buffer "size_t" s!"o{k}") ++
    if textPositions columns = [] then []
    else [.buffer "char" "text", .size "text_len", .size "text_cap"]

/-- The record type of a scan. -/
def recordType (node : Nat) (columns : List ScanColumn) : Definition :=
  .record (.tableType node) (members columns)

/-- Helper function that reads a field of a type that is not text. -/
def fieldReader : DataType → Helper
  | .int => .parseInt
  | .float => .parseFloat
  | .date | .text | .bool => .parseDate

/-- Reads a field of a line into its column. -/
def readField (column : ScanColumn) (position : Nat) : Statement :=
  let field : Code := s!"fields[{column.index.toNat}]"
  if column.type = .text then
    .control
      ("if (!" ++ .help .storeText
        ["&t->text", "&t->text_len", "&t->text_cap", field, s!"&t->o{position}[t->rows]"] ++ ")")
      "KILN_FAIL(KILN_ALLOC_ERROR);"
  else
    .line ("KILN_CHECK(" ++ .help (fieldReader column.type) [field, s!"&t->c{position}[t->rows]"] ++
      ");")

/-- Makes room for more rows. -/
def growRows (columns : List ScanColumn) : Statement :=
  .block (.control "if (t->rows == t->cap)")
    (.line "t->cap = t->cap ? t->cap * 2 : 1024;" ::
      ((placed columns).map (fun (_, k) => .line s!"KILN_RESIZE(t->c{k}, t->cap);") ++
        (textPositions columns).map fun k => .line s!"KILN_RESIZE(t->o{k}, t->cap);"))

/-- Reads a line of the file as a row. -/
def readRow (columns : List ScanColumn) : List Statement :=
  let fields := toString (fieldCount columns)
  [.line "size_t count;",
    .control "if (len == 0)" "continue;",
    .line ("count = " ++ .help .split ["line", "fields", fields] ++ ";"),
    .line ("KILN_CHECK(count >= " ++ fields ++ ");"),
    growRows columns] ++
    (placed columns).map (fun (column, k) => readField column k) ++
    [.line "t->rows++;"]

/-- The statements that load a table. -/
def load (table : String) (columns : List ScanColumn) : List Statement :=
  [.line "int kiln_status = KILN_OK;",
    .line "char path[4096];",
    .line "char *line = NULL;",
    .line "size_t cap = 0;",
    .line ("char *fields[" ++ toString (fieldCount columns) ++ "];"),
    .line "long len;",
    .line "FILE *in;",
    .blank,
    .control
      ("if (snprintf(path, sizeof(path), \"%s/%s.csv\", db, " ++ .literal table ++
        ") >= (int)sizeof(path))")
      "return KILN_IO_ERROR;",
    .line "in = fopen(path, \"r\");",
    .control "if (!in)" "return KILN_IO_ERROR;",
    .block
      (.control ("while ((len = " ++ .help .readLine ["in", "&line", "&cap"] ++ ") >= 0)"))
      (readRow columns),
    .control "if (len == -2)" "KILN_FAIL(KILN_ALLOC_ERROR);",
    .control "if (ferror(in))" "KILN_FAIL(KILN_IO_ERROR);"] ++
    (textPositions columns).map (fun k =>
      .control "for (size_t r = 0; r < t->rows; r++)" s!"t->c{k}[r] = t->text + t->o{k}[r];") ++
    [.line "kiln_done:",
      .line "free(line);",
      .line "fclose(in);",
      .line "return kiln_status;"]

/-- The function that loads a table. -/
def loader (node : Nat) (table : String) (columns : List ScanColumn) : Definition :=
  .function [] "static int" (.loader node) ["const char *db", Name.tableType node ++ " *t"]
    (load table columns)

/-- What the memory of a scan is released by. -/
def released (node : Nat) (columns : List ScanColumn) : List Code :=
  (placed columns).map (fun (_, k) => .member (record node) s!"c{k}") ++
    (textPositions columns).map (fun k => .member (record node) s!"o{k}") ++
    if textPositions columns = [] then [] else [.member (record node) "text"]

/-- What a scan needs outside of the pipelines. -/
def sections (node : Nat) (table : String) (columns : List ScanColumn) : Sections :=
  { definitions := [recordType node columns, loader node table columns]
    declarations := [.record (.tableType node) (record node)]
    setup :=
      [.line ("kiln_status = " ++ .call (.loader node) ["kiln_db", "&" ++ record node] ++ ";"),
        .control "if (kiln_status != KILN_OK)" "goto kiln_done;"]
    released := released node columns }

end Table

/-- What the scans of a plan need, in the order of the nodes. -/
def Plan.tableSections (plan : Plan) : Sections :=
  .concat (plan.nodes.zipIdx.map fun
    | (.scan table columns, node) => Table.sections node table columns
    | _ => {})

end PlanCompiler
