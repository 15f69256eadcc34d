import PlanCompiler.Lowering.Groups
import PlanCompiler.Lowering.Join
import PlanCompiler.Lowering.RowPrinter
import PlanCompiler.Lowering.Table
import PlanCompiler.Plan.Tree

/-!
# Lowering to one row at a time

`PlanTree.rows` makes the rows of an operator available as values at the open place of a
pipeline. Operators that pass rows on extend the pipeline of their input; joins and aggregations
close it, which stores the rows, and start a new one. A projection binds each of its columns to a
variable for every row it sees, so that a fault in one of them is noticed whether or not the
column is used.
-/

namespace PlanCompiler

/-- A pipeline with one row at hand. -/
abbrev RowPipeline := Pipeline (List Value)

/-- What follows once a row of the right input is at hand: the rows that agree with it. -/
def Join.probeRow (join : Join) (checked : Bool) (rightKey : UInt32) (row : List Value) :
    Except LoweringError RowPipeline := do
  let key ← keyOf rightKey row
  .ok { sections := {}, context := join.probe checked key, output := join.found ++ row }

namespace Groups

/-- The statements that take a row into its group. -/
def gatherRow (groups : Groups) (checked : Bool) (groupBy : List UInt32) (row : List Value) :
    Except LoweringError (List Statement) := do
  let group := groups.named "g"
  let found ← groups.find groupBy row group
  let updates ← groups.aggregates.zipIdx.mapM fun ((aggregate, _), j) =>
    accumulate aggregate (groups.slot j group) row
  .ok [.block .bare (found ++ groups.checkGroup checked group ++ updates.flatten)]

/-- The statements that take a row into the summary of all rows. -/
def summariseRow (groups : Groups) (row : List Value) :
    Except LoweringError (List Statement) := do
  let counted : List Statement :=
    if groups.countsRows then [.line (groups.named "rows" ++ "++;")] else []
  let updates ← groups.aggregates.zipIdx.mapM fun ((aggregate, _), j) =>
    accumulate aggregate (groups.accumulator j) row
  .ok (counted ++ updates.flatten)

end Groups

namespace RowPipeline

/-- The rows of a table. -/
def scan (site : Site) (columns : List ScanColumn) : RowPipeline :=
  let table := Table.record site.node
  let index := Name.ofNode .row site.node none
  { sections := {}
    context := [.enter (.upTo index (.member table "rows"))]
    output := columns.zipIdx.map fun (column, k) =>
      { code := .element (.member table s!"c{k}") index, type := column.type } }

/-- The rows that satisfy a condition. -/
def filter (input : RowPipeline) (checked : Bool) (predicate : Expr) :
    Except LoweringError RowPipeline := do
  let condition ← predicate.lower checked input.output
  .ok (input.extend {} [.enter (.control ("if (" ++ condition.code ++ ")"))] input.output)

/-- Binds the columns of a projection to variables. -/
def bindColumns (columns : List (Name × Value)) : List Statement :=
  columns.flatMap fun (name, value) =>
    [.declare (value.type.representation ++ " const ") name (" = " ++ value.code ++ ";"),
      .line ("(void)" ++ name ++ ";")]

/-- The rows computed by some expressions. -/
def project (input : RowPipeline) (checked : Bool) (site : Site) (expressions : List Expr) :
    Except LoweringError RowPipeline := do
  let row ← Expr.lowerEach checked input.output expressions
  let columns := row.zipIdx.map fun (value, k) =>
    (Name.ofNode .projection site.node (some s!"v{k}"), value)
  .ok (input.extend {} (.enter .bare :: Context.runAll (bindColumns columns))
    (columns.map fun (name, value) => { code := name, type := value.type }))

/-- The pairs of rows that agree on a key. -/
def join (left right : RowPipeline) (checked : Bool) (join : Join) (rightKey : UInt32) :
    Except LoweringError RowPipeline := do
  let probed ← join.probeRow checked rightKey right.output
  -- The left input is read to its end before the right one starts.
  .ok (Pipeline.join left (right.extend {} probed.context probed.output) join.sections
    (join.store left.output) join.buildIndex)

/-- The groups of the rows. -/
def group (input : RowPipeline) (checked : Bool) (groups : Groups) (groupBy : List UInt32) :
    Except LoweringError RowPipeline := do
  let taken ← groups.gatherRow checked groupBy input.output
  .ok (input.gather groups.sections taken [.enter (.upTo (groups.named "i") groups.count)]
    (groups.groupRow (groups.named "i")))

/-- The single row that summarises all rows. -/
def summarise (input : RowPipeline) (groups : Groups) : Except LoweringError RowPipeline := do
  let taken ← groups.summariseRow input.output
  .ok (input.gather groups.sections taken [.enter .bare] groups.totals)

end RowPipeline

/-- The rows of an operator, one at a time. -/
def PlanTree.rows (checked : Bool) : PlanTree → Except LoweringError RowPipeline
  | .scan site _ columns => .ok (.scan site columns)
  | .filter _ predicate input => do (← input.rows checked).filter checked predicate
  | .project site expressions input => do
    (← input.rows checked).project checked site expressions
  | .join site leftKey rightKey left right => do
    let join ← Join.of site.node left.schema leftKey
    (← left.rows checked).join (← right.rows checked) checked join rightKey
  | .aggregate site groupBy aggregates input => do
    let groups ← Groups.of site.node input.schema groupBy aggregates
    let pipeline ← input.rows checked
    if groups.isGrouped then pipeline.group checked groups groupBy
    else pipeline.summarise groups

/-- The function that prints the rows of a plan, unless they are only counted. -/
def Plan.printerSections (plan : Plan) (countOnly : Bool) : Sections :=
  if countOnly then {} else { definitions := [RowPrinter.definition plan.outputSchema] }

/-- The check that no division has failed before a result is handed on. -/
def checkFault (checked : Bool) : List Statement :=
  if checked then [.line "KILN_CHECK(!kiln_fault);"] else []

/-- What is done with a row of the result: it is counted or printed. -/
def finishRow (checked countOnly : Bool) (row : List Value) : List Statement :=
  checkFault checked ++
    [if countOnly then .line "kiln_count++;" else RowPrinter.print (row.map Value.code)]

/-- The lowering of a plan to one row at a time: its sections and its statements. -/
def Plan.lowerScalar (plan : Plan) (checked countOnly : Bool) :
    Except LoweringError (Sections × List Statement) := do
  let pipeline ← plan.tree.rows checked
  .ok (plan.tableSections ++ plan.printerSections countOnly ++ pipeline.sections,
    pipeline.close (finishRow checked countOnly pipeline.output))

end PlanCompiler
