import PlanCompiler.Lowering.Scalar

/-!
# Lowering to batches of rows

`PlanTree.batches` makes the rows of an operator available in batches. A filter moves no data; it
narrows a batch by a selection vector with the positions of the rows it keeps. A projection
writes its columns to vectors, and a join collects its rows in buffers that are handed on in
slices. Directives for vectorisation stand before loops over dense batches without text.
-/

namespace PlanCompiler

/-- A column of a batch: an array and what is added to row positions. -/
structure BatchColumn where
  /-- The array. -/
  array : Code
  /-- Position of the first row, if it is not the start of the array. -/
  offset : Option Name
  /-- Type of the elements. -/
  type : DataType

namespace BatchColumn

/-- The value of the column in a row. -/
def atRow (column : BatchColumn) (row : Code) : Value :=
  let position : Code := match column.offset with
    | some offset => offset ++ " + " ++ row
    | none => row
  { code := .element column.array position, type := column.type }

end BatchColumn

/-- Rows that are handled together. -/
structure Batch where
  /-- The columns. -/
  columns : List BatchColumn
  /-- Number of rows. -/
  length : Code
  /-- Array of the positions of the rows; without it the rows are the first ones. -/
  selection : Option Name

namespace Batch

/-- Position of a row. -/
def position (batch : Batch) (index : Name) : Code :=
  match batch.selection with
  | some selection => .element selection index
  | none => index

/-- The values of a row. -/
def row (batch : Batch) (index : Name) : List Value :=
  batch.columns.map fun column => column.atRow (batch.position index)

/-- All rows follow each other. -/
def isDense (batch : Batch) : Bool := batch.selection.isNone

/-- A loop over the rows. -/
def loop (batch : Batch) (index : Name) (body : List Statement) : Statement :=
  .block (.upTo index batch.length) body

/-- No column has texts. -/
def hasNoText (columns : List BatchColumn) : Bool := columns.all fun column => column.type ≠ .text

/-- The length of the slice of some rows that starts at a position, and not more than a batch. -/
def declareLength (name base : Name) (total : Code) : Statement :=
  .declare "const size_t " name
    (" = " ++ total ++ " - " ++ base ++ " < KILN_VECTOR_SIZE ? " ++ total ++ " - " ++ base ++
      " : KILN_VECTOR_SIZE;")

/-- Goes over arrays with a total number of rows, batch by batch. -/
def slices (base name : Name) (total : Code) (arrays : List (Code × DataType)) :
    Context × Batch :=
  ([.enter (.batches base total), .run (declareLength name base total)],
    { columns := arrays.map fun (array, type) => { array, offset := base, type }
      length := name
      selection := none })

end Batch

namespace Join

/-- Buffers for the rows of a join. -/
def outputs (join : Join) (schema : Schema) : List (Name × DataType) :=
  schema.zipIdx.map fun (type, k) => (join.named s!"o{k}", type)

/-- The variables of the buffers for the rows of a join. -/
def outputSections (join : Join) (schema : Schema) : Sections :=
  .plain "size_t" (join.named "on") "0" ++ .plain "size_t" (join.named "ocap") "0" ++
    .concat ((join.outputs schema).map fun (name, type) => .buffer type.representation name)

/-- Puts a row into the buffers. -/
def collect (join : Join) (schema : Schema) (row : List Value) : List Statement :=
  let count := join.named "on"
  let cap := join.named "ocap"
  .block (.control ("if (" ++ count ++ " == " ++ cap ++ ")"))
    (.line (cap ++ " = " ++ cap ++ " ? " ++ cap ++ " * 2 : KILN_VECTOR_SIZE;") ::
      (join.outputs schema).map fun (name, _) =>
        .line ("KILN_RESIZE(" ++ name ++ ", " ++ cap ++ ");")) ::
    (((join.outputs schema).zip row).map (fun ((name, _), value) =>
      .line (.element name count ++ " = " ++ value.code ++ ";")) ++
      [.line (count ++ "++;")])

end Join

/-- A pipeline with a batch at hand. -/
abbrev BatchPipeline := Pipeline Batch

/-- Takes a batch into an accumulator. Sums of floats may be reordered; sums of integers are
written so that they wrap around, which is no form of a reduction. -/
def BatchPipeline.accumulate (batch : Batch) (simd : Bool) (aggregate : Aggregate)
    (type : DataType) (accumulator index : Name) : Except LoweringError Statement :=
  match aggregate with
  | .count => .ok (.line (accumulator ++ " += (int64_t)" ++ batch.length ++ ";"))
  | .sum _ | .min _ | .max _ => do
    let update ← Groups.accumulate aggregate accumulator (batch.row index)
    let directive : Option Code :=
      if simd ∧ batch.isDense ∧ aggregate.isSum ∧ type = .float then
        some ("#pragma omp simd reduction(+:" ++ accumulator ++ ")")
      else none
    .ok (.block ((Head.upTo index batch.length).withDirective directive) update)

namespace Join

/-- The statements that store a batch of the left input. -/
def storeBatch (join : Join) (batch : Batch) : List Statement :=
  [batch.loop (join.named "i") (join.store (batch.row (join.named "i")))]

/-- The loop over a batch of the right input, in which its rows are paired with those that agree
with them. -/
def pairBatch (join : Join) (checked : Bool) (schema : Schema) (batch : Batch) (key : Value) :
    Statement :=
  let index := join.named "i"
  batch.loop index (Context.fill (join.probe checked key)
    (join.collect schema (join.found ++ batch.row index)))

/-- The collected rows in slices. -/
def slices (join : Join) (schema : Schema) : Context × Batch :=
  Batch.slices (join.named "base") (join.named "n") (join.named "on")
    ((join.outputs schema).map fun (name, type) => (name, type))

/-- The pairs of the rows of a batch, which are collected and then handed on in slices. -/
def pairs (join : Join) (checked : Bool) (schema : Schema) (batch : Batch) (key : Value) :
    BatchPipeline :=
  { sections := {}
    context :=
      .run (.line (join.named "on" ++ " = 0;")) ::
        .run (join.pairBatch checked schema batch key) :: (join.slices schema).1
    output := (join.slices schema).2 }

/-- What follows once a batch of the right input is at hand: its rows are paired with those that
agree with them. -/
def probeBatch (join : Join) (checked : Bool) (schema : Schema) (rightKey : UInt32)
    (batch : Batch) : Except LoweringError BatchPipeline := do
  let key ← keyOf rightKey (batch.row (join.named "i"))
  .ok (join.pairs checked schema batch key)

end Join

namespace Groups

/-- The statements that take a batch into its groups. First the groups of the whole batch are
found, then each aggregate has a loop of its own. -/
def gatherBatch (groups : Groups) (checked : Bool) (groupBy : List UInt32) (batch : Batch) :
    Except LoweringError (List Statement) := do
  let index := groups.named "i"
  let group := groups.named "g"
  let groupIds := groups.named "gid"
  let row := batch.row index
  let found ← groups.find groupBy row group
  let assign := batch.loop index
    (found ++ [.line (.element groupIds index ++ " = " ++ group ++ ";")])
  let updates ← groups.aggregates.zipIdx.mapM fun ((aggregate, _), j) => do
    let update ← accumulate aggregate (groups.slot j group) row
    .ok (batch.loop index
      (.declare "const size_t " group (" = " ++ .element groupIds index ++ ";") ::
        (groups.checkGroup checked group ++ update)))
  .ok (assign :: updates)

/-- The groups in slices. -/
def slices (groups : Groups) : Context × Batch :=
  Batch.slices (groups.named "base") (groups.named "n") groups.count
    (groups.keys.zipIdx.map (fun (type, k) => (.member groups.record s!"g{k}", type)) ++
      groups.aggregates.zipIdx.map fun ((_, type), j) => (.member groups.record s!"v{j}", type))

/-- The statements that take a batch into the summary of all rows. -/
def summariseBatch (groups : Groups) (simd : Bool) (batch : Batch) :
    Except LoweringError (List Statement) := do
  let counted : List Statement :=
    if groups.countsRows then
      [.line (groups.named "rows" ++ " += (int64_t)" ++ batch.length ++ ";")]
    else []
  let updates ← groups.aggregates.zipIdx.mapM fun ((aggregate, type), j) =>
    BatchPipeline.accumulate batch simd aggregate type (groups.accumulator j) (groups.named "i")
  .ok (counted ++ updates)

/-- The arrays for the single row that summarises all rows. -/
def totalArrays (groups : Groups) : List (Name × Value) :=
  groups.totals.zipIdx.map fun (value, j) => (groups.named s!"o{j}", value)

/-- The statements that store the single row in its arrays. -/
def storeTotals (groups : Groups) : List Statement :=
  groups.totalArrays.flatMap fun (name, value) =>
    [.declare (value.type.representation ++ " ") name "[1];",
      .line (.element name "0" ++ " = " ++ value.code ++ ";")]

/-- The single row as a batch. -/
def totalBatch (groups : Groups) : Batch :=
  { columns := groups.totalArrays.map fun (name, value) =>
      { array := name, offset := none, type := value.type }
    length := "1"
    selection := none }

end Groups

namespace BatchPipeline

/-- The rows of a table. -/
def scan (site : Site) (columns : List ScanColumn) : BatchPipeline :=
  let table := Table.record site.node
  let (steps, batch) := Batch.slices (.ofNode .table site.node (some "base"))
    (.ofNode .table site.node (some "n")) (.member table "rows")
    (columns.zipIdx.map fun (column, k) => (.member table s!"c{k}", column.type))
  { sections := {}, context := steps, output := batch }

/-- The rows that satisfy a condition. With vectorisation the selection is written without
branches. -/
def filter (input : BatchPipeline) (checked simd : Bool) (site : Site) (predicate : Expr) :
    Except LoweringError BatchPipeline := do
  let batch := input.output
  let selection := Name.ofNode .filter site.node (some "sel")
  let count := Name.ofNode .filter site.node (some "n")
  let index := Name.ofNode .filter site.node (some "i")
  let condition ← predicate.lower checked (batch.row index)
  let position := "(uint32_t)" ++ batch.position index
  let keep : List Statement :=
    if simd then
      [.line (.element selection count ++ " = " ++ position ++ ";"),
        .line (count ++ " += (size_t)" ++ condition.code ++ ";")]
    else
      [.control ("if (" ++ condition.code ++ ")")
        (.element selection (count ++ "++") ++ " = " ++ position ++ ";")]
  .ok (input.extend (.vector "uint32_t" selection)
    [.run (.declare "size_t " count " = 0;"), .run (batch.loop index keep),
      .enter (.control ("if (" ++ count ++ " != 0)"))]
    { columns := batch.columns, length := count, selection })

/-- The arrays for the columns of a projection. -/
def projectionArrays (node : Nat) (types : Schema) : List (Name × DataType) :=
  types.zipIdx.map fun (type, k) => (.ofNode .projection node (some s!"c{k}"), type)

/-- The vectors for the columns of a projection. -/
def projectionSections (node : Nat) (types : Schema) : Sections :=
  .concat ((projectionArrays node types).map fun (name, type) =>
    .vector type.representation name)

/-- The rows computed by some expressions. -/
def project (input : BatchPipeline) (checked simd : Bool) (site : Site) (inputSchema : Schema)
    (expressions : List Expr) : Except LoweringError BatchPipeline := do
  let types ← expressions.mapM fun e =>
    (e.infer inputSchema).mapError fun error => LoweringError.illTyped error.message
  let columns : List BatchColumn := (projectionArrays site.node types).map fun (name, type) =>
    { array := name, offset := none, type }
  let batch := input.output
  let index := Name.ofNode .projection site.node (some "i")
  let row ← Expr.lowerEach checked (batch.row index) expressions
  -- Texts are pointers, which the directive does not apply to.
  let directive : Option Code :=
    if simd ∧ Batch.hasNoText columns ∧ batch.isDense ∧ Batch.hasNoText batch.columns then
      some "#pragma omp simd"
    else none
  let assignments : List Statement := (columns.zip row).map fun (column, value) =>
    .line ((column.atRow index).code ++ " = " ++ value.code ++ ";")
  .ok (input.extend (projectionSections site.node types)
    [.run (.block ((Head.upTo index batch.length).withDirective directive) assignments)]
    { columns, length := batch.length, selection := none })

/-- The pairs of rows that agree on a key. -/
def join (left right : BatchPipeline) (checked : Bool) (join : Join) (schema : Schema)
    (rightKey : UInt32) : Except LoweringError BatchPipeline := do
  let probed ← join.probeBatch checked schema rightKey right.output
  -- The left input is read to its end before the right one starts.
  .ok (Pipeline.join left
    (right.extend (join.outputSections schema) probed.context probed.output) join.sections
    (join.storeBatch left.output) join.buildIndex)

/-- The groups of the rows. -/
def group (input : BatchPipeline) (checked : Bool) (groups : Groups) (groupBy : List UInt32) :
    Except LoweringError BatchPipeline := do
  let taken ← groups.gatherBatch checked groupBy input.output
  .ok (input.gather (groups.sections ++ .vector "size_t" (groups.named "gid")) taken
    groups.slices.1 groups.slices.2)

/-- The single row that summarises all rows. -/
def summarise (input : BatchPipeline) (simd : Bool) (groups : Groups) :
    Except LoweringError BatchPipeline := do
  let taken ← groups.summariseBatch simd input.output
  .ok (input.gather groups.sections taken (.enter .bare :: Context.runAll groups.storeTotals)
    groups.totalBatch)

end BatchPipeline

/-- The batches of an operator, one at a time. -/
def PlanTree.batches (checked simd : Bool) : PlanTree → Except LoweringError BatchPipeline
  | .scan site _ columns => .ok (.scan site columns)
  | .filter site predicate input => do
    (← input.batches checked simd).filter checked simd site predicate
  | .project site expressions input => do
    (← input.batches checked simd).project checked simd site input.schema expressions
  | .join site leftKey rightKey left right => do
    let join ← Join.of site.node left.schema leftKey
    (← left.batches checked simd).join (← right.batches checked simd) checked join site.schema
      rightKey
  | .aggregate site groupBy aggregates input => do
    let groups ← Groups.of site.node input.schema groupBy aggregates
    let pipeline ← input.batches checked simd
    if groups.isGrouped then pipeline.group checked groups groupBy
    else pipeline.summarise simd groups

/-- What is done with a batch of the result: its rows are counted together or printed one by
one. -/
def finishBatch (checked countOnly : Bool) (batch : Batch) : List Statement :=
  checkFault checked ++
    [if countOnly then .line ("kiln_count += (int64_t)" ++ batch.length ++ ";")
      else batch.loop .resultRow [RowPrinter.print ((batch.row .resultRow).map Value.code)]]

/-- The lowering of a plan to batches: its sections and its statements. -/
def Plan.lowerVectorised (plan : Plan) (checked countOnly simd : Bool) :
    Except LoweringError (Sections × List Statement) := do
  let pipeline ← plan.tree.batches checked simd
  .ok (plan.tableSections ++ plan.printerSections countOnly ++ pipeline.sections,
    pipeline.close (finishBatch checked countOnly pipeline.output))

end PlanCompiler
