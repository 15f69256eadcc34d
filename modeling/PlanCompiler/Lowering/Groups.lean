import PlanCompiler.Lowering.Expr
import PlanCompiler.Lowering.Pipeline
import PlanCompiler.Plan.Validity

/-!
# Aggregations in the generated program

With group columns, an aggregation keeps a hash table: slots that hold group numbers plus one, and
for each group its keys and accumulators in columns, in the order in which the groups first
appeared. Without group columns it keeps one accumulator for each aggregate, and counts rows if a
least or greatest value is asked for, which is zero if there are no rows.
-/

namespace PlanCompiler

/-- An aggregation: its position and the types of its columns. -/
structure Groups where
  /-- Position of the aggregation. -/
  node : Nat
  /-- Types of the group columns. -/
  keys : List DataType
  /-- The aggregates and the types of their results. -/
  aggregates : List (Aggregate × DataType)

namespace Groups

/-- The aggregation of a node over its input. -/
def of (node : Nat) (input : Schema) (groupBy : List UInt32) (aggregates : List Aggregate) :
    Except LoweringError Groups := do
  let keys ← groupBy.mapM fun column =>
    match input[column.toNat]? with
    | some type => .ok type
    | none => .error (.groupColumn column)
  let typed ← aggregates.mapM fun aggregate => do
    let type ← (aggregate.resultType input).mapError fun fault => .illTyped fault.message
    .ok (aggregate, type)
  .ok { node, keys, aggregates := typed }

/-- There are group columns. -/
def isGrouped (groups : Groups) : Bool := groups.keys ≠ []

/-- The record with the groups. -/
def record (groups : Groups) : Name := .ofNode .aggregation groups.node none

/-- A variable of the aggregation. -/
def named (groups : Groups) (part : String) : Name :=
  .ofNode .aggregation groups.node (some part)

/-- The number of groups. -/
def count (groups : Groups) : Code := .member groups.record "groups"

/-- An accumulator of a group. -/
def slot (groups : Groups) (j : Nat) (group : Code) : Code :=
  .element (.member groups.record s!"v{j}") group

/-- An accumulator of an aggregation without groups. -/
def accumulator (groups : Groups) (j : Nat) : Name := groups.named s!"v{j}"

/-- The rows are counted, since no least or greatest value exists without them. -/
def countsRows (groups : Groups) : Bool :=
  ¬ groups.isGrouped ∧ groups.aggregates.any fun (aggregate, _) => aggregate.isExtreme

/-- Start value of an accumulator. -/
def initial (aggregate : Aggregate) (type : DataType) : String :=
  match aggregate with
  | .sum _ | .count => "0"
  | .min _ => type.greatest
  | .max _ => type.least

/-- The columns of a group. -/
def groupRow (groups : Groups) (group : Code) : List Value :=
  groups.keys.zipIdx.map (fun (type, k) =>
    { code := .element (.member groups.record s!"g{k}") group, type }) ++
    groups.aggregates.zipIdx.map fun ((_, type), j) => { code := groups.slot j group, type }

/-- The single row of an aggregation without groups. -/
def totals (groups : Groups) : List Value :=
  groups.aggregates.zipIdx.map fun ((aggregate, type), j) =>
    if aggregate.isExtreme then
      { code := "(" ++ groups.named "rows" ++ " ? " ++ groups.accumulator j ++ " : (" ++
          type.representation ++ ")0)"
        type }
    else { code := groups.accumulator j, type }

/-- Names of the columns of the hash table. -/
def columnNames (groups : Groups) : List String :=
  groups.keys.zipIdx.map (fun (_, k) => s!"g{k}") ++
    groups.aggregates.zipIdx.map fun (_, j) => s!"v{j}"

/-- The type of the hash table. -/
def recordType (groups : Groups) : Definition :=
  .record (.groupsType groups.node)
    ([.size "groups", .size "mask", .buffer "size_t" "slots"] ++
      groups.keys.zipIdx.map (fun (type, k) => .buffer type.representation s!"g{k}") ++
      groups.aggregates.zipIdx.map fun ((_, type), j) => .buffer type.representation s!"v{j}")

/-- The parameters for a group key. -/
def keyParameters (groups : Groups) : List Code :=
  groups.keys.zipIdx.map fun (type, k) => type.representation ++ s!" k{k}"

/-- The function that hashes a group key. -/
def hashFunction (groups : Groups) : Definition :=
  .function [] "static inline uint64_t" (.groupsHash groups.node) groups.keyParameters
    (.line "uint64_t h = 0;" ::
      (groups.keys.zipIdx.map (fun (type, k) =>
        let key : Value := { code := s!"k{k}", type }
        .line ("h = " ++ .help .hashCombine ["h", key.hash] ++ ";")) ++
        [.line "return h;"]))

/-- The function that doubles the hash table. -/
def growFunction (groups : Groups) : Definition :=
  let stored : List Code := groups.keys.zipIdx.map fun (_, k) => s!"t->g{k}[i]"
  .function [] "static int" (.groupsGrow groups.node) [Name.groupsType groups.node ++ " *t"]
    ([.line "size_t size = t->slots ? (t->mask + 1) * 2 : 1024;",
      .line "size_t *slots = calloc(size, sizeof(size_t));",
      .line "size_t i;",
      .line "void *grown;",
      .control "if (!slots)" "return 0;",
      .block (.control "for (i = 0; i < t->groups; i++)")
        [.line ("size_t h = (size_t)" ++ .call (.groupsHash groups.node) stored ++
          " & (size - 1);"),
          .control "while (slots[h])" "h = (h + 1) & (size - 1);",
          .line "slots[h] = i + 1;"],
      .line "free(t->slots);",
      .line "t->slots = slots;",
      .line "t->mask = size - 1;"] ++
      groups.columnNames.flatMap (fun column =>
        [.line s!"grown = realloc(t->{column}, (size / 2) * sizeof(*t->{column}));",
          .control "if (!grown)" "return 0;",
          .line s!"t->{column} = grown;"]) ++
      [.line "return 1;"])

/-- The function that finds or adds a group. -/
def findFunction (groups : Groups) : Definition :=
  let keys : List Code := groups.keys.zipIdx.map fun (_, k) => s!"k{k}"
  let found : List Code :=
    groups.keys.zipIdx.map fun (type, k) => Value.sameKey type s!"t->g{k}[g]" s!"k{k}"
  .function
    ["/* Returns the index of the group, inserting it when absent, or SIZE_MAX when out of memory. */"]
    "static size_t" (.groupsFind groups.node)
    ((Name.groupsType groups.node ++ " *t") :: groups.keyParameters)
    ([.line "size_t h, g;",
      .control
        ("if ((t->groups + 1) * 2 > t->mask + 1 && !" ++
          .call (.groupsGrow groups.node) ["t"] ++ ")")
        "return SIZE_MAX;",
      .line ("h = (size_t)" ++ .call (.groupsHash groups.node) keys ++ " & t->mask;"),
      .block (.control "while (t->slots[h])")
        [.line "g = t->slots[h] - 1;",
          .control ("if (" ++ .separated " && " found ++ ")") "return g;",
          .line "h = (h + 1) & t->mask;"],
      .line "g = t->groups++;",
      .line "t->slots[h] = g + 1;"] ++
      groups.keys.zipIdx.map (fun (_, k) => .line s!"t->g{k}[g] = k{k};") ++
      groups.aggregates.zipIdx.map (fun ((aggregate, type), j) =>
        .line (s!"t->v{j}[g] = " ++ initial aggregate type ++ ";")) ++
      [.line "return g;"])

/-- What the aggregation needs outside of the pipelines. -/
def sections (groups : Groups) : Sections :=
  if groups.isGrouped then
    { definitions :=
        [groups.recordType, groups.hashFunction, groups.growFunction, groups.findFunction]
      declarations := [.record (.groupsType groups.node) groups.record]
      released :=
        .member groups.record "slots" :: groups.columnNames.map fun column =>
          .member groups.record column }
  else
    (if groups.countsRows then .plain "int64_t" (groups.named "rows") "0" else {}) ++
      .concat (groups.aggregates.zipIdx.map fun ((aggregate, type), j) =>
        .plain type.representation (groups.accumulator j) (initial aggregate type))

/-- Sets a variable to the group of a row. -/
def find (groups : Groups) (groupBy : List UInt32) (row : List Value) (target : Name) :
    Except LoweringError (List Statement) := do
  let keys ← groupBy.mapM fun column =>
    match row[column.toNat]? with
    | some value => .ok value.code
    | none => .error (.groupColumn column)
  .ok
    [.declare "size_t " target ";",
      .line (target ++ " = " ++ .call (.groupsFind groups.node) (("&" ++ groups.record) :: keys) ++
        ";"),
      .control ("if (" ++ target ++ " == SIZE_MAX)") "KILN_FAIL(KILN_ALLOC_ERROR);"]

/-- Checks that a group exists. -/
def checkGroup (groups : Groups) (checked : Bool) (group : Name) : List Statement :=
  if checked then [.line ("KILN_CHECK(" ++ group ++ " < " ++ groups.count ++ ");")] else []

/-- Takes a row into an accumulator. Sums of integers wrap around. -/
def accumulate (aggregate : Aggregate) (accumulator : Code) (row : List Value) :
    Except LoweringError (List Statement) := do
  let operand (column : UInt32) : Except LoweringError Value :=
    match row[column.toNat]? with
    | some value => .ok value
    | none => .error (.aggregateColumn column)
  match aggregate with
  | .sum column =>
    let value ← operand column
    if value.type = .int then
      .ok
        [.line (accumulator ++ " = (int64_t)((uint64_t)" ++ accumulator ++ " + (uint64_t)" ++
          value.code ++ ");")]
    else .ok [.line (accumulator ++ " += " ++ value.code ++ ";")]
  | .count => .ok [.line (accumulator ++ " += 1;")]
  | .min column =>
    let value ← operand column
    .ok
      [.control ("if (" ++ value.code ++ " < " ++ accumulator ++ ")")
        (accumulator ++ " = " ++ value.code ++ ";")]
  | .max column =>
    let value ← operand column
    .ok
      [.control ("if (" ++ value.code ++ " > " ++ accumulator ++ ")")
        (accumulator ++ " = " ++ value.code ++ ";")]

end Groups

end PlanCompiler
