import PlanCompiler.Expr.Typing
import PlanCompiler.Plan.Node

/-!
# Validity of plans

A list of nodes is a plan if every node only reads earlier nodes, has a row type over the rows
it reads, and feeds exactly one other node, except the last one, the root, which feeds none.
`Node.resolve` gives the row type of one node and `resolveAll` those of all of them;
`checkConsumers` checks the shape. `validate` does both and reports the first fault together
with the position of the node at fault.
-/

namespace PlanCompiler

/-- What a column number of a join or of an aggregation is for. -/
inductive ColumnRole where
  | leftKey
  | rightKey
  | group
  | sum
  | extreme
deriving DecidableEq, Repr

namespace ColumnRole

/-- The wording of a role. -/
def text : ColumnRole → String
  | .leftKey => "left key"
  | .rightKey => "right key"
  | .group => "group column"
  | .sum => "sum column"
  | .extreme => "min/max column"

end ColumnRole

/-- What is wrong with a node. -/
inductive NodeFault where
  /-- There are no nodes at all. -/
  | noNodes
  /-- An input is not an earlier node. -/
  | notEarlier (input : UInt32)
  /-- A table name has other characters than ASCII letters, digits and underscores, or none. -/
  | tableName (table : String)
  /-- A scan reads no columns. -/
  | noColumns
  /-- A table cannot store truth values. -/
  | boolColumn (index : UInt32)
  /-- An expression nests too deeply. -/
  | nesting
  /-- An expression has no type. -/
  | illTyped (error : TypeError)
  /-- A filter has to decide on a truth value. -/
  | predicateType (found : DataType)
  /-- A projection computes nothing. -/
  | noExpressions
  /-- A join reads one node twice. -/
  | sameInputs
  /-- A join compares keys of different types. -/
  | keyTypes (left right : DataType)
  /-- A column number is beyond the row. -/
  | columnOutOfRange (role : ColumnRole) (column : UInt32) (width : Nat)
  /-- An aggregation neither groups nor summarises. -/
  | noOutputs
  /-- Only numbers can be added up. -/
  | noSum (type : DataType)
  /-- Values of the type have no least or greatest one. -/
  | noExtreme (aggregate : Aggregate) (type : DataType)
  /-- The last node is read by another one. -/
  | rootConsumed
  /-- A node has to be read exactly once. -/
  | consumed (times : Nat)
deriving DecidableEq, Repr

namespace NodeFault

/-- The wording of a fault. -/
def message : NodeFault → String
  | .noNodes => "plan has no nodes"
  | .notEarlier input => "input " ++ toString input.toNat ++ " does not refer to an earlier node"
  | .tableName table => "invalid table name '" ++ table ++ "'"
  | .noColumns => "scan reads no columns"
  | .boolColumn index => "table column " ++ toString index.toNat ++ " cannot be bool"
  | .nesting => "expression nesting exceeds " ++ toString Expr.maxDepth
  | .illTyped error => error.message
  | .predicateType found => "filter predicate must be bool, found " ++ found.name
  | .noExpressions => "project has no expressions"
  | .sameInputs => "join inputs must be distinct nodes"
  | .keyTypes left right => "join key types differ: " ++ left.name ++ " and " ++ right.name
  | .columnOutOfRange role column width =>
    role.text ++ " " ++ toString column.toNat ++ " out of range, input has " ++ toString width ++
      " columns"
  | .noOutputs => "aggregate has neither groups nor aggregates"
  | .noSum type => "sum is not defined for " ++ type.name
  | .noExtreme aggregate type => aggregate.name ++ " is not defined for " ++ type.name
  | .rootConsumed => "root node is consumed by another node"
  | .consumed times => "node is consumed " ++ toString times ++ " times, expected exactly once"

end NodeFault

/-- A fault and the position of the node that has it. -/
structure ValidationError where
  /-- Position of the node. -/
  node : Nat
  /-- What is wrong with it. -/
  fault : NodeFault
deriving DecidableEq, Repr

namespace ValidationError

/-- The wording of a validation error. -/
def message (error : ValidationError) : String :=
  "invalid node " ++ toString error.node ++ ": " ++ error.fault.message

end ValidationError

/-- Table names become parts of file names and have only ASCII letters, digits and
underscores. -/
def isTableName (name : String) : Bool :=
  name.toList ≠ [] ∧ name.toList.all fun c => c.isAlphanum || c = '_'

/-- Type of a column that a join or an aggregation names. -/
def Schema.column (schema : Schema) (role : ColumnRole) (column : UInt32) :
    Except NodeFault DataType :=
  match schema[column.toNat]? with
  | some type => .ok type
  | none => .error (.columnOutOfRange role column schema.length)

/-- Type of an aggregate over rows of a schema. -/
def Aggregate.resultType (input : Schema) (aggregate : Aggregate) : Except NodeFault DataType :=
  match aggregate with
  | .count => .ok .int
  | .sum column => do
    let type ← input.column .sum column
    if type.isNumeric then .ok type else .error (.noSum type)
  | .min column | .max column => do
    let type ← input.column .extreme column
    if type = .bool ∨ type = .text then .error (.noExtreme aggregate type) else .ok type

/-- Type of an expression of a plan, which may not nest too deeply. -/
def Expr.typeInPlan (input : Schema) (e : Expr) : Except NodeFault DataType :=
  if Expr.maxDepth < e.depth then .error .nesting
  else (e.infer input).mapError .illTyped

namespace Node

/-- The row type of a node, given those of the nodes before it. -/
def resolve (earlier : List Schema) : Node → Except NodeFault Schema
  | .scan table columns =>
    if ¬ isTableName table then .error (.tableName table)
    else if columns.isEmpty then .error .noColumns
    else columns.mapM fun column =>
      if column.type = .bool then .error (.boolColumn column.index) else .ok column.type
  | .filter input predicate => do
    let schema := earlier.getD input.toNat []
    let type ← predicate.typeInPlan schema
    if type = .bool then .ok schema else .error (.predicateType type)
  | .project input expressions =>
    if expressions.isEmpty then .error .noExpressions
    else expressions.mapM (Expr.typeInPlan (earlier.getD input.toNat []))
  | .join left right leftKey rightKey => do
    if left = right then .error .sameInputs
    else
      let leftSchema := earlier.getD left.toNat []
      let rightSchema := earlier.getD right.toNat []
      let leftType ← leftSchema.column .leftKey leftKey
      let rightType ← rightSchema.column .rightKey rightKey
      if leftType = rightType then .ok (leftSchema ++ rightSchema)
      else .error (.keyTypes leftType rightType)
  | .aggregate input groupBy aggregates => do
    if groupBy.isEmpty ∧ aggregates.isEmpty then .error .noOutputs
    else
      let schema := earlier.getD input.toNat []
      let keys ← groupBy.mapM (schema.column .group)
      let results ← aggregates.mapM (Aggregate.resultType schema)
      .ok (keys ++ results)

/-- The inputs of a node are earlier nodes. -/
def checkInputs (position : Nat) (node : Node) : Except NodeFault Unit :=
  match node.inputs.find? fun input => position ≤ input.toNat with
  | some input => .error (.notEarlier input)
  | none => .ok ()

end Node

/-- The row types of nodes that follow nodes with given row types. -/
def resolveAll (earlier : List Schema) : List Node → Except ValidationError (List Schema)
  | [] => .ok earlier
  | node :: rest => do
    -- The schemas of the earlier nodes also tell the position of this one.
    let position := earlier.length
    (node.checkInputs position).mapError (.mk position)
    let schema ← (node.resolve earlier).mapError (.mk position)
    resolveAll (earlier ++ [schema]) rest

/-- A change of the error changes no success. -/
theorem mapError_eq_ok_iff {ε ε' α : Type} {x : Except ε α} {f : ε → ε'} {a : α} :
    x.mapError f = .ok a ↔ x = .ok a := by
  cases x with
  | error fault => exact ⟨nofun, nofun⟩
  | ok value =>
    exact ⟨fun h => congrArg Except.ok (Except.ok.inj h),
      fun h => congrArg Except.ok (Except.ok.inj h)⟩

/-- A successful step of `resolveAll`. -/
theorem resolveAll_cons_eq_ok_iff {earlier all : List Schema} {node : Node} {rest : List Node} :
    resolveAll earlier (node :: rest) = .ok all ↔
      node.checkInputs earlier.length = .ok () ∧
        ∃ schema, node.resolve earlier = .ok schema ∧
          resolveAll (earlier ++ [schema]) rest = .ok all := by
  rw [resolveAll]
  constructor
  · intro h
    -- the inputs are checked before the schema is computed, so a fault of them comes first
    cases inputs : (node.checkInputs earlier.length).mapError
        (ValidationError.mk earlier.length) with
    | error fault => simp [inputs, bind, Except.bind] at h
    | ok checked =>
      cases found : (node.resolve earlier).mapError (ValidationError.mk earlier.length) with
      | error fault => simp [inputs, found, bind, Except.bind] at h
      | ok schema =>
        refine ⟨mapError_eq_ok_iff.1 inputs, schema, mapError_eq_ok_iff.1 found, ?_⟩
        simpa [inputs, found, bind, Except.bind] using h
  · rintro ⟨inputs, schema, found, later⟩
    simpa [mapError_eq_ok_iff.2 inputs, mapError_eq_ok_iff.2 found, bind, Except.bind] using later

/-- The row types of the earlier nodes stay in front. -/
theorem exists_eq_append_of_resolveAll {earlier all : List Schema} {nodes : List Node}
    (h : resolveAll earlier nodes = .ok all) :
    ∃ later, all = earlier ++ later ∧ later.length = nodes.length := by
  induction nodes generalizing earlier with
  | nil =>
    simp only [resolveAll, Except.ok.injEq] at h
    exact ⟨[], by simp [h], rfl⟩
  | cons node rest ih =>
    obtain ⟨-, schema, -, h⟩ := resolveAll_cons_eq_ok_iff.1 h
    obtain ⟨later, rfl, length⟩ := ih h
    exact ⟨schema :: later, by simp, by simp [length]⟩

/-- How often a node is read. -/
def consumers (nodes : List Node) (position : Nat) : Nat :=
  (nodes.flatMap Node.inputs).countP fun input => input.toNat = position

/-- Every node but the last is read exactly once, and the last one never. -/
def checkConsumers (nodes : List Node) : Except ValidationError Unit :=
  (List.range nodes.length).forM fun position =>
    let times := consumers nodes position
    if position + 1 = nodes.length then
      if times = 0 then .ok () else .error { node := position, fault := .rootConsumed }
    else if times = 1 then .ok ()
    else .error { node := position, fault := .consumed times }

/-- The row types of the nodes of a plan, or the first fault. -/
def validate (nodes : List Node) : Except ValidationError (List Schema) :=
  if nodes.isEmpty then .error { node := 0, fault := .noNodes }
  else do
    let schemas ← resolveAll [] nodes
    checkConsumers nodes
    .ok schemas

/-- What `validate` accepts. -/
theorem validate_eq_ok_iff {nodes : List Node} {schemas : List Schema} :
    validate nodes = .ok schemas ↔
      nodes ≠ [] ∧ resolveAll [] nodes = .ok schemas ∧ checkConsumers nodes = .ok () := by
  cases nodes with
  | nil => simp [validate]
  | cons node rest =>
    simp only [validate, bind, Except.bind]
    cases resolveAll [] (node :: rest) <;> cases checkConsumers (node :: rest) <;> simp

end PlanCompiler
