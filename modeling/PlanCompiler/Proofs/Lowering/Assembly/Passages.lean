import PlanCompiler.Proofs.Lowering.Assembly.Basic
import PlanCompiler.Proofs.Lowering.Sections.Definitions

/-!
# Passages that are written line by line

The code that does not depend on what comes after it: how a join stores its rows, builds its index
and pairs rows, and the functions that load tables, print rows and look for groups. Each is written
out here with the blocks that it opens and closes, and does what the statements of the lowering say.

## Main definitions

* `Join.storeEdits`, `Join.indexEdits`, `Join.collectEdits`, `Join.pairEdits`: joins;
* `Join.probeOpening`, `Join.probeClosing`: the search for the rows that agree with a row;
* `Table.loaderEdits`, `RowPrinter.edits`, `Groups.tableEdits`: functions.

## Main results

* `Join.editsOfAll_store`, `Join.editsOfAll_buildIndex`, `Join.opening_probe`, `Join.opening_pairs`:
  the edits are those of the statements of a join;
* `Plan.edits_tableSections`, `Plan.edits_printerSections`, `Groups.edits_sections`: the edits are
  those of the definitions.
-/

namespace PlanCompiler

namespace Statement

/-- Statements are written one after the other. -/
theorem editsOfAll_eq_flatMap (statements : List Statement) :
    editsOfAll statements = statements.flatMap edits := by
  induction statements with
  | nil => rfl
  | cons first rest ih => rw [editsOfAll, ih, List.flatMap_cons]

/-- Statements that are made of the members of a list are written one by one. -/
theorem editsOfAll_flatMap {α : Type} (xs : List α) (f : α → List Statement) :
    editsOfAll (xs.flatMap f) = xs.flatMap fun x => editsOfAll (f x) := by
  simp only [editsOfAll_eq_flatMap, List.flatMap_assoc]

end Statement

open Statement (editsOfAll editsOfAll_append editsOfAll_flatMap)

/-! ## Joins -/

namespace Join

variable (join : Join)

/-- Stores a row of the left input, after a block that makes room for it. -/
def storeEdits (row : List Value) : List Edit :=
  let rows := join.named "rows"
  let cap := join.named "cap"
  [.opening (some ("if (" ++ rows ++ " == " ++ cap ++ ")")),
    .line 0 (cap ++ " = " ++ cap ++ " ? " ++ cap ++ " * 2 : 1024;")] ++
    row.zipIdx.map (fun (_, k) =>
      .line 0 ("KILN_RESIZE(" ++ join.column k ++ ", " ++ cap ++ ");")) ++
    [.closing] ++
    row.zipIdx.map (fun (value, k) =>
      .line 0 (.element (join.column k) rows ++ " = " ++ value.code ++ ";")) ++
    [.line 0 (rows ++ "++;")]

/-- The edits that store a row are those of the statements that do. -/
theorem editsOfAll_store (row : List Value) :
    editsOfAll (join.store row) = join.storeEdits row := by
  simp [store, storeEdits, Statement.edits, editsOfAll, Head.edits, editsOfAll_append,
    editsOfAll_flatMap, List.map_eq_flatMap]

/-- Builds the index over the stored rows, with a loop over them. -/
def indexEdits : List Edit :=
  let rows := join.named "rows"
  let mask := join.named "mask"
  let heads := join.named "heads"
  let next := join.named "next"
  let row := join.named "b"
  let bucket := join.named "h"
  let key : Value := { code := .element (join.column join.key) row, type := join.keyType }
  [.line 0 (mask ++ " = " ++ .help .tableSize [rows] ++ " - 1;"),
    .line 0 (heads ++ " = calloc(" ++ mask ++ " + 1, sizeof(size_t));"),
    .line 0 ("if (!" ++ heads ++ ")"),
    .line 1 "KILN_FAIL(KILN_ALLOC_ERROR);",
    .line 0 ("KILN_RESIZE(" ++ next ++ ", " ++ rows ++ " + 1);"),
    .opening (some ("for (size_t " ++ row ++ " = " ++ "0" ++ "; " ++ (row ++ " < " ++ rows) ++
      "; " ++ (row ++ "++") ++ ")")),
    .line 0 ("const size_t " ++ bucket ++ (" = (size_t)" ++ key.hash ++ " & " ++ mask ++ ";")),
    .line 0 (.element next row ++ " = " ++ .element heads bucket ++ ";"),
    .line 0 (.element heads bucket ++ " = " ++ row ++ " + 1;"),
    .closing]

/-- The edits that build the index are those of the statements that do. -/
theorem editsOfAll_buildIndex : editsOfAll join.buildIndex = join.indexEdits := by
  rfl

/-- The statements that store a row, with the edits that write them. -/
def storePassage (row : List Value) : Passage :=
  ⟨join.store row, join.storeEdits row, join.editsOfAll_store row⟩

/-- The statements that build the index, with the edits that write them. -/
def indexPassage : Passage := ⟨join.buildIndex, join.indexEdits, join.editsOfAll_buildIndex⟩

/-- Stores the rows of a batch in a loop. -/
def storeBatchEdits (batch : Batch) : List Edit :=
  let index := join.named "i"
  [.opening (some ("for (size_t " ++ index ++ " = " ++ "0" ++ "; " ++
      (index ++ " < " ++ batch.length) ++ "; " ++ (index ++ "++") ++ ")"))] ++
    join.storeEdits (batch.row index) ++ [.closing]

/-- The edits that store a batch are those of the statements that do. -/
theorem editsOfAll_storeBatch (batch : Batch) :
    editsOfAll (join.storeBatch batch) = join.storeBatchEdits batch := by
  rw [storeBatch, storeBatchEdits, Batch.loop, editsOfAll, editsOfAll, Statement.edits,
    editsOfAll_store, List.append_nil, ← List.append_assoc]
  rfl

/-- The statements that store a batch, with the edits that write them. -/
def storeBatchPassage (batch : Batch) : Passage :=
  ⟨join.storeBatch batch, join.storeBatchEdits batch, join.editsOfAll_storeBatch batch⟩

/-- Starts the search for the stored rows that agree with a row: a block for the key, and in it a
loop along the chain. -/
def probeOpening (checked : Bool) (key : Value) : List Edit :=
  let wanted := join.named "k"
  let link := join.named "e"
  let found := join.named "m"
  let wantedValue : Value := { code := wanted, type := key.type }
  [.opening none,
    .line 0 ((key.type.representation ++ " const ") ++ wanted ++ (" = " ++ key.code ++ ";")),
    .opening (some ("for (size_t " ++ link ++ " = " ++
      .element (join.named "heads")
        ("(size_t)" ++ wantedValue.hash ++ " & " ++ join.named "mask") ++
      "; " ++ (link ++ " != 0") ++ "; " ++
      (link ++ " = " ++ .element (join.named "next") (link ++ " - 1")) ++ ")")),
    .line 0 ("const size_t " ++ found ++ (" = " ++ link ++ " - 1;"))] ++
    (if checked then [.line 0 ("KILN_CHECK(" ++ found ++ " < " ++ join.named "rows" ++ ");")]
      else []) ++
    [.line 0
        ("if (!" ++ Value.sameKey key.type (.element (join.column join.key) found) wanted ++ ")"),
      .line 1 "continue;"]

/-- Ends the search for the stored rows that agree with a row, and then the block around it. -/
def probeClosing : List Edit := [.closing, .closing]

/-- The search is started as the context of the lowering says. -/
theorem opening_probe (checked : Bool) (key : Value) :
    (join.probe checked key).opening = join.probeOpening checked key := by
  cases checked <;> rfl

/-- The two blocks that are open in the search are closed. -/
theorem closing_probe (checked : Bool) (key : Value) :
    (join.probe checked key).closing = probeClosing := by
  cases checked <;> rfl

/-- Puts a row into the buffers, after a block that makes room for it. -/
def collectEdits (schema : Schema) (row : List Value) : List Edit :=
  let count := join.named "on"
  let cap := join.named "ocap"
  [.opening (some ("if (" ++ count ++ " == " ++ cap ++ ")")),
    .line 0 (cap ++ " = " ++ cap ++ " ? " ++ cap ++ " * 2 : KILN_VECTOR_SIZE;")] ++
    (join.outputs schema).map (fun (name, _) =>
      .line 0 ("KILN_RESIZE(" ++ name ++ ", " ++ cap ++ ");")) ++
    [.closing] ++
    ((join.outputs schema).zip row).map (fun ((name, _), value) =>
      .line 0 (.element name count ++ " = " ++ value.code ++ ";")) ++
    [.line 0 (count ++ "++;")]

/-- The edits that collect a row are those of the statements that do. -/
theorem editsOfAll_collect (schema : Schema) (row : List Value) :
    editsOfAll (join.collect schema row) = join.collectEdits schema row := by
  simp [collect, collectEdits, Statement.edits, editsOfAll, Head.edits, editsOfAll_append,
    editsOfAll_flatMap, List.map_eq_flatMap]

/-- Pairs the rows of a batch in a loop, collects the pairs, and starts to go through them in
slices. Only the loop over the slices stays open. -/
def pairEdits (checked : Bool) (schema : Schema) (batch : Batch) (key : Value) : List Edit :=
  let index := join.named "i"
  [.line 0 (join.named "on" ++ " = 0;"),
    .opening (some ("for (size_t " ++ index ++ " = " ++ "0" ++ "; " ++
      (index ++ " < " ++ batch.length) ++ "; " ++ (index ++ "++") ++ ")"))] ++
    join.probeOpening checked key ++
    join.collectEdits schema (join.found ++ batch.row index) ++
    probeClosing ++
    [.closing] ++
    (join.slices schema).1.opening

/-- The edits that pair a batch are those of the context of the lowering. -/
theorem opening_pairs (checked : Bool) (schema : Schema) (batch : Batch) (key : Value) :
    (join.pairs checked schema batch key).context.opening =
      join.pairEdits checked schema batch key := by
  have inside := Context.editsOfAll_fill (join.probe checked key)
    (join.collect schema (join.found ++ batch.row (join.named "i")))
  rw [opening_probe, closing_probe, editsOfAll_collect] at inside
  rw [pairs, pairEdits, Context.opening, Context.opening, pairBatch, Batch.loop, Statement.edits,
    Statement.edits, inside]
  simp [Head.edits, Head.upTo]

/-- What follows once a batch of the right input is at hand, with the edits around it. -/
def probeBatchFrame (checked : Bool) (schema : Schema) (rightKey : UInt32) (batch : Batch) :
    Except LoweringError (Frame Batch) := do
  let key ← keyOf rightKey (batch.row (join.named "i"))
  .ok
    { pipeline := join.pairs checked schema batch key
      opening := join.pairEdits checked schema batch key
      closing := [.closing]
      opening_context := join.opening_pairs checked schema batch key
      closing_context := rfl }

end Join

/-! ## Functions -/

namespace Table

variable (columns : List ScanColumn)

/-- Makes room for more rows in a block. -/
def growEdits : List Edit :=
  [.opening (some "if (t->rows == t->cap)"),
    .line 0 "t->cap = t->cap ? t->cap * 2 : 1024;"] ++
    (placed columns).map (fun (_, k) => .line 0 s!"KILN_RESIZE(t->c{k}, t->cap);") ++
    (textPositions columns).map (fun k => .line 0 s!"KILN_RESIZE(t->o{k}, t->cap);") ++
    [.closing]

/-- Reads the lines of the file in a loop. -/
def readEdits : List Edit :=
  let fields := toString (fieldCount columns)
  [.opening (some ("while ((len = " ++ .help .readLine ["in", "&line", "&cap"] ++ ") >= 0)")),
    .line 0 "size_t count;",
    .line 0 "if (len == 0)",
    .line 1 "continue;",
    .line 0 ("count = " ++ .help .split ["line", "fields", fields] ++ ";"),
    .line 0 ("KILN_CHECK(count >= " ++ fields ++ ");")] ++
    growEdits columns ++
    (placed columns).flatMap (fun (column, k) => (readField column k).edits) ++
    [.line 0 "t->rows++;", .closing]

/-- The edits that read the lines are those of the statement that does. -/
theorem edits_read :
    (Statement.block (.control ("while ((len = " ++ .help .readLine ["in", "&line", "&cap"] ++
      ") >= 0)")) (readRow columns)).edits = readEdits columns := by
  simp [readRow, readEdits, growRows, growEdits, Statement.edits, editsOfAll, Head.edits,
    editsOfAll_append, editsOfAll_flatMap, List.map_eq_flatMap]

/-- Writes the function that loads a table. -/
def loaderEdits (node : Nat) (table : String) : List Edit :=
  [.line 0 ("static int" ++ " " ++ Name.loader node ++ "(" ++
      .separated ", " ["const char *db", Name.tableType node ++ " *t"] ++ ")"),
    .opening none,
    .line 0 "int kiln_status = KILN_OK;",
    .line 0 "char path[4096];",
    .line 0 "char *line = NULL;",
    .line 0 "size_t cap = 0;",
    .line 0 ("char *fields[" ++ toString (fieldCount columns) ++ "];"),
    .line 0 "long len;",
    .line 0 "FILE *in;",
    .blank,
    .line 0 ("if (snprintf(path, sizeof(path), \"%s/%s.csv\", db, " ++ .literal table ++
      ") >= (int)sizeof(path))"),
    .line 1 "return KILN_IO_ERROR;",
    .line 0 "in = fopen(path, \"r\");",
    .line 0 "if (!in)",
    .line 1 "return KILN_IO_ERROR;"] ++
    readEdits columns ++
    [.line 0 "if (len == -2)",
      .line 1 "KILN_FAIL(KILN_ALLOC_ERROR);",
      .line 0 "if (ferror(in))",
      .line 1 "KILN_FAIL(KILN_IO_ERROR);"] ++
    (textPositions columns).flatMap (fun k =>
      [.line 0 "for (size_t r = 0; r < t->rows; r++)",
        .line 1 s!"t->c{k}[r] = t->text + t->o{k}[r];"]) ++
    [.line 0 "kiln_done:",
      .line 0 "free(line);",
      .line 0 "fclose(in);",
      .line 0 "return kiln_status;",
      .closing,
      .blank]

/-- The edits that write the function are those of its definition. -/
theorem edits_loader (node : Nat) (table : String) :
    (loader node table columns).edits = loaderEdits columns node table := by
  simp [loader, loaderEdits, Definition.edits, Statement.edits, load, editsOfAll, Head.edits,
    editsOfAll_append, editsOfAll_flatMap,
    List.map_eq_flatMap, ↓edits_read]

end Table

namespace RowPrinter

/-- Writes the function that prints the rows of a schema. -/
def edits (schema : Schema) : List Edit :=
  [.line 0 ("static void" ++ " " ++ Name.printRow ++ "(" ++ .separated ", "
      ("FILE *out" :: schema.zipIdx.map fun (type, k) => type.representation ++ s!" v{k}") ++ ")"),
    .opening none] ++
    schema.zipIdx.flatMap (fun (type, k) =>
      (if k = 0 then [] else [.line 0 "fputs(\", \", out);"]) ++
        [.line 0 (printColumn type s!"v{k}")]) ++
    [.line 0 "fputc('\\n', out);",
      .closing,
      .blank]

/-- The edits that write the function are those of its definition. -/
theorem edits_definition (schema : Schema) : (definition schema).edits = edits schema := by
  have separator (k : Nat) : editsOfAll (if k = 0 then [] else [.line "fputs(\", \", out);"]) =
      if k = 0 then [] else [.line 0 "fputs(\", \", out);"] := by
    split <;> rfl
  simp [definition, edits, Definition.edits, Statement.edits, body, editsOfAll, Head.edits,
    editsOfAll_append, editsOfAll_flatMap, separator]

end RowPrinter

namespace Groups

variable (groups : Groups)

/-- The heading of a function with the name and the parameters of one of the functions below. -/
def heading (result : String) (name : Name) (parameters : List Code) : Edit :=
  .line 0 (result ++ " " ++ name ++ "(" ++ .separated ", " parameters ++ ")")

/-- Writes the function that hashes a group key. -/
def hashEdits : List Edit :=
  [heading "static inline uint64_t" (.groupsHash groups.node) groups.keyParameters,
    .opening none,
    .line 0 "uint64_t h = 0;"] ++
    groups.keys.zipIdx.map (fun (type, k) =>
      let key : Value := { code := s!"k{k}", type }
      .line 0 ("h = " ++ .help .hashCombine ["h", key.hash] ++ ";")) ++
    [.line 0 "return h;",
      .closing,
      .blank]

/-- The edits that write the function are those of its definition. -/
theorem edits_hashFunction : groups.hashFunction.edits = groups.hashEdits := by
  simp [hashFunction, hashEdits, heading, Definition.edits, Statement.edits, editsOfAll, Head.edits,
    editsOfAll_append, editsOfAll_flatMap, List.map_eq_flatMap]

/-- Writes the function that doubles the hash table, with a loop that moves the groups. -/
def growEdits : List Edit :=
  let stored : List Code := groups.keys.zipIdx.map fun (_, k) => s!"t->g{k}[i]"
  [heading "static int" (.groupsGrow groups.node) [Name.groupsType groups.node ++ " *t"],
    .opening none,
    .line 0 "size_t size = t->slots ? (t->mask + 1) * 2 : 1024;",
    .line 0 "size_t *slots = calloc(size, sizeof(size_t));",
    .line 0 "size_t i;",
    .line 0 "void *grown;",
    .line 0 "if (!slots)",
    .line 1 "return 0;",
    .opening (some "for (i = 0; i < t->groups; i++)"),
    .line 0 ("size_t h = (size_t)" ++ .call (.groupsHash groups.node) stored ++ " & (size - 1);"),
    .line 0 "while (slots[h])",
    .line 1 "h = (h + 1) & (size - 1);",
    .line 0 "slots[h] = i + 1;",
    .closing,
    .line 0 "free(t->slots);",
    .line 0 "t->slots = slots;",
    .line 0 "t->mask = size - 1;"] ++
    groups.columnNames.flatMap (fun column =>
      [.line 0 s!"grown = realloc(t->{column}, (size / 2) * sizeof(*t->{column}));",
        .line 0 "if (!grown)",
        .line 1 "return 0;",
        .line 0 s!"t->{column} = grown;"]) ++
    [.line 0 "return 1;",
      .closing,
      .blank]

/-- The edits that write the function are those of its definition. -/
theorem edits_growFunction : groups.growFunction.edits = groups.growEdits := by
  simp [growFunction, growEdits, heading, Definition.edits, Statement.edits, editsOfAll, Head.edits,
    editsOfAll_append, editsOfAll_flatMap]

/-- Writes the function that finds or adds a group, with a loop along the slots. -/
def findEdits : List Edit :=
  let keys : List Code := groups.keys.zipIdx.map fun (_, k) => s!"k{k}"
  let found : List Code :=
    groups.keys.zipIdx.map fun (type, k) => Value.sameKey type s!"t->g{k}[g]" s!"k{k}"
  [.line 0 "/* Returns the index of the group, inserting it when absent, or SIZE_MAX when out of memory. */",
    heading "static size_t" (.groupsFind groups.node)
      ((Name.groupsType groups.node ++ " *t") :: groups.keyParameters),
    .opening none,
    .line 0 "size_t h, g;",
    .line 0 ("if ((t->groups + 1) * 2 > t->mask + 1 && !" ++
      .call (.groupsGrow groups.node) ["t"] ++ ")"),
    .line 1 "return SIZE_MAX;",
    .line 0 ("h = (size_t)" ++ .call (.groupsHash groups.node) keys ++ " & t->mask;"),
    .opening (some "while (t->slots[h])"),
    .line 0 "g = t->slots[h] - 1;",
    .line 0 ("if (" ++ .separated " && " found ++ ")"),
    .line 1 "return g;",
    .line 0 "h = (h + 1) & t->mask;",
    .closing,
    .line 0 "g = t->groups++;",
    .line 0 "t->slots[h] = g + 1;"] ++
    groups.keys.zipIdx.map (fun (_, k) => .line 0 s!"t->g{k}[g] = k{k};") ++
    groups.aggregates.zipIdx.map (fun ((aggregate, type), j) =>
      .line 0 (s!"t->v{j}[g] = " ++ initial aggregate type ++ ";")) ++
    [.line 0 "return g;",
      .closing,
      .blank]

/-- The edits that write the function are those of its definition. -/
theorem edits_findFunction : groups.findFunction.edits = groups.findEdits := by
  simp [findFunction, findEdits, heading, Definition.edits, Statement.edits, editsOfAll, Head.edits,
    editsOfAll_append, editsOfAll_flatMap, List.map_eq_flatMap]

/-- Writes the type of the hash table and its functions, if there is one. -/
def tableEdits : List Edit :=
  if groups.isGrouped then
    groups.recordType.edits ++ groups.hashEdits ++ groups.growEdits ++ groups.findEdits
  else []

/-- The edits that write the hash table are those of its definitions. -/
theorem edits_sections :
    groups.sections.definitions.flatMap Definition.edits = groups.tableEdits := by
  rw [definitions_sections, definitions, tableEdits]
  split
  · simp [edits_hashFunction, edits_growFunction, edits_findFunction]
  · rfl

/-- What an aggregation needs, with the script that writes it. -/
def needs : Needs := .defined groups.sections groups.tableEdits groups.edits_sections

end Groups

namespace Plan

variable (plan : Plan)

/-- Writes the record types of all scans and the functions that load them. -/
def tableEdits : List Edit :=
  plan.nodes.zipIdx.flatMap fun
    | (.scan table columns, node) =>
      (Table.recordType node columns).edits ++ Table.loaderEdits columns node table
    | _ => []

/-- The edits that write the tables are those of their definitions. -/
theorem edits_tableSections :
    plan.tableSections.definitions.flatMap Definition.edits = plan.tableEdits := by
  rw [tableSections, tableEdits, Sections.definitions_concat, List.flatMap_map, List.flatMap_assoc]
  refine List.flatMap_congr fun (node, position) _ => ?_
  cases node with
  | scan table columns => simp [Table.sections, Table.edits_loader]
  | filter | project | join | aggregate => rfl

/-- What the scans need, with the script that writes it. -/
def tableNeeds : Needs := .defined plan.tableSections plan.tableEdits plan.edits_tableSections

/-- Writes the function that prints the rows of the result, unless they are only counted. -/
def printerEdits (countOnly : Bool) : List Edit :=
  if countOnly then [] else RowPrinter.edits plan.outputSchema

/-- The edits that write the printer are those of its definition. -/
theorem edits_printerSections (countOnly : Bool) :
    (plan.printerSections countOnly).definitions.flatMap Definition.edits =
      plan.printerEdits countOnly := by
  cases countOnly with
  | true => rfl
  | false => exact (List.append_nil _).trans (RowPrinter.edits_definition _)

/-- What is needed to print the result, with the script that writes it. -/
def printerNeeds (countOnly : Bool) : Needs :=
  .defined (plan.printerSections countOnly) (plan.printerEdits countOnly)
    (plan.edits_printerSections countOnly)

end Plan

/-! ## Results -/

/-- Counts or prints a row of the result. -/
def finishRowEdits (checked countOnly : Bool) (row : List Value) : List Edit :=
  (if checked then [.line 0 "KILN_CHECK(!kiln_fault);"] else []) ++
    [if countOnly then .line 0 "kiln_count++;"
      else .line 0 (.call .printRow ("kiln_out" :: row.map Value.code) ++ ";")]

/-- The statements for a row of the result, with the edits that write them. -/
def finishRowPassage (checked countOnly : Bool) (row : List Value) : Passage where
  statements := finishRow checked countOnly row
  edits := finishRowEdits checked countOnly row
  editsOfAll_statements := by cases checked <;> cases countOnly <;> rfl

/-- Counts the rows of a batch of the result together, or prints them in a loop. -/
def finishBatchEdits (checked countOnly : Bool) (batch : Batch) : List Edit :=
  (if checked then [.line 0 "KILN_CHECK(!kiln_fault);"] else []) ++
    if countOnly then [.line 0 ("kiln_count += (int64_t)" ++ batch.length ++ ";")]
    else
      [.opening (some ("for (size_t " ++ Name.resultRow ++ " = " ++ "0" ++ "; " ++
          (Name.resultRow ++ " < " ++ batch.length) ++ "; " ++ (Name.resultRow ++ "++") ++ ")")),
        .line 0
          (.call .printRow ("kiln_out" :: (batch.row .resultRow).map Value.code) ++ ";"),
        .closing]

/-- The statements for a batch of the result, with the edits that write them. -/
def finishBatchPassage (checked countOnly : Bool) (batch : Batch) : Passage where
  statements := finishBatch checked countOnly batch
  edits := finishBatchEdits checked countOnly batch
  editsOfAll_statements := by cases checked <;> cases countOnly <;> rfl

end PlanCompiler
