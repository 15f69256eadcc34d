import PlanCompiler.Plan.Basic
import PlanCompiler.Proofs.Expr.Typing

/-!
# Valid nodes

What the row type of a node says about the node, one statement for each operator, and that every
node of a plan has a row type.

## Main definitions

* `Node.parts`: the expressions of a node with all their parts.

## Main results

* `Node.resolve_filter_eq_ok_iff` and its siblings: when a node has a row type;
* `Plan.exists_resolve`: every node of a plan has one;
* `Plan.ofNodes_eq_ok_iff`: a plan is made of valid nodes only.
-/

namespace PlanCompiler

/-- An expression is typed in a plan if it is typed and does not nest too deeply. -/
theorem Expr.typeInPlan_eq_ok_iff {input : Schema} {e : Expr} {type : DataType} :
    e.typeInPlan input = .ok type ↔ e.depth ≤ Expr.maxDepth ∧ e.infer input = .ok type := by
  rw [typeInPlan]
  split
  · rename_i deep
    simp [Nat.not_le.2 deep]
  · rename_i shallow
    simp [mapError_eq_ok_iff, Nat.not_lt.1 shallow]

/-- An expression of a plan does not nest too deeply and its connectives have operands. -/
theorem Expr.shallow_of_typeInPlan {input : Schema} {e : Expr} {type : DataType}
    (typed : e.typeInPlan input = .ok type) :
    e.depth ≤ Expr.maxDepth ∧ ∀ part ∈ e.parts, part.isEmptyJunction = false := by
  obtain ⟨shallow, typed⟩ := Expr.typeInPlan_eq_ok_iff.1 typed
  exact ⟨shallow, isEmptyJunction_eq_false_of_infer typed⟩

/-- A column is found exactly at its index. -/
theorem Schema.column_eq_ok_iff {schema : Schema} {role : ColumnRole} {column : UInt32}
    {type : DataType} :
    schema.column role column = .ok type ↔ schema[column.toNat]? = some type := by
  rw [Schema.column]
  split <;> simp [*]

namespace Node

/-- The expressions of a node with all their parts. -/
def parts : Node → List Expr
  | .filter _ predicate => predicate.parts
  | .project _ expressions => expressions.flatMap Expr.parts
  | .scan .. | .join .. | .aggregate .. => []

variable {earlier : List Schema} {schema : Schema}

/-- A scan is valid if its table is named properly and it reads columns, none of them a truth value.
-/
theorem resolve_scan_eq_ok_iff {table : String} {columns : List ScanColumn} :
    (scan table columns).resolve earlier = .ok schema ↔
      isTableName table = true ∧ columns ≠ [] ∧ (∀ column ∈ columns, column.type ≠ .bool) ∧
        columns.map ScanColumn.type = schema := by
  -- one column at a time, in the form that `mapM_eq_ok_iff` gives
  have checked (column : ScanColumn) (type : DataType) :
      (if column.type = .bool then Except.error (NodeFault.boolColumn column.index)
        else .ok column.type) = .ok type ↔ column.type ≠ .bool ∧ column.type = type := by
    split <;> simp_all
  rw [resolve]
  split
  · simp_all
  · split
    · simp_all
    · simp_all only [mapM_eq_ok_iff, List.forall₂_and_left]
      rw [← List.forall₂_eq_eq_eq, List.forall₂_map_left_iff]
      simp_all

/-- A filter is valid if its predicate is a truth value, and keeps the schema of its input. -/
theorem resolve_filter_eq_ok_iff {input : UInt32} {predicate : Expr} :
    (filter input predicate).resolve earlier = .ok schema ↔
      predicate.typeInPlan (earlier.getD input.toNat []) = .ok .bool ∧
        schema = earlier.getD input.toNat [] := by
  simp only [resolve, bind_eq_ok_iff]
  constructor
  · rintro ⟨type, typed, result⟩
    split at result
    · rename_i isBool
      exact ⟨isBool ▸ typed, (Except.ok.inj result).symm⟩
    · cases result
  · rintro ⟨typed, rfl⟩
    exact ⟨.bool, typed, rfl⟩

/-- A projection is valid if it has expressions and all of them are typed. -/
theorem resolve_project_eq_ok_iff {input : UInt32} {expressions : List Expr} :
    (project input expressions).resolve earlier = .ok schema ↔
      expressions ≠ [] ∧ List.Forall₂
        (fun e type => e.typeInPlan (earlier.getD input.toNat []) = .ok type)
        expressions schema := by
  rw [resolve]
  split
  · simp_all
  · simp_all [mapM_eq_ok_iff]

/-- A join is valid if its inputs differ and its keys have one type. -/
theorem resolve_join_eq_ok_iff {left right leftKey rightKey : UInt32} :
    (join left right leftKey rightKey).resolve earlier = .ok schema ↔
      left ≠ right ∧ (∃ type, (earlier.getD left.toNat [])[leftKey.toNat]? = some type ∧
        (earlier.getD right.toNat [])[rightKey.toNat]? = some type) ∧
        schema = earlier.getD left.toNat [] ++ earlier.getD right.toNat [] := by
  rw [resolve]
  split
  · simp_all
  · rename_i distinct
    -- both keys are looked up before their types are compared
    simp only [bind_eq_ok_iff, Schema.column_eq_ok_iff]
    constructor
    · rintro ⟨leftType, foundLeft, rightType, foundRight, result⟩
      split at result
      · rename_i same
        exact ⟨distinct, ⟨leftType, foundLeft, same ▸ foundRight⟩, (Except.ok.inj result).symm⟩
      · cases result
    · rintro ⟨-, ⟨type, foundLeft, foundRight⟩, rfl⟩
      exact ⟨type, foundLeft, type, foundRight, if_pos rfl⟩

/-- An aggregation is valid if it computes anything, and its keys and aggregates are typed. -/
theorem resolve_aggregate_eq_ok_iff {input : UInt32} {groupBy : List UInt32}
    {aggregates : List Aggregate} :
    (aggregate input groupBy aggregates).resolve earlier = .ok schema ↔
      ¬ (groupBy = [] ∧ aggregates = []) ∧ ∃ keys results,
        List.Forall₂ (fun column type =>
          (earlier.getD input.toNat [])[column.toNat]? = some type) groupBy keys ∧
        List.Forall₂ (fun aggregate type =>
          aggregate.resultType (earlier.getD input.toNat []) = .ok type) aggregates results ∧
        keys ++ results = schema := by
  rw [resolve]
  split
  · simp_all
  · rename_i some
    simp only [List.isEmpty_iff] at some
    simp only [bind_eq_ok_iff, mapM_eq_ok_iff, Schema.column_eq_ok_iff, Except.ok.injEq]
    -- the checks come in turn, so each binds what the next one is about
    constructor
    · rintro ⟨keys, found, results, summarised, rfl⟩
      exact ⟨some, keys, results, found, summarised, rfl⟩
    · rintro ⟨-, keys, results, found, summarised, rfl⟩
      exact ⟨keys, found, results, summarised, rfl⟩

end Node

/-- Every node of a resolved list has a row type over those of the nodes before it. -/
theorem exists_resolve_of_mem {earlier all : List Schema} {nodes : List Node}
    (h : resolveAll earlier nodes = .ok all) {node : Node} (member : node ∈ nodes) :
    ∃ before schema, node.resolve before = .ok schema := by
  induction nodes generalizing earlier with
  | nil => cases member
  | cons first rest ih =>
    obtain ⟨-, schema, found, later⟩ := resolveAll_cons_eq_ok_iff.1 h
    rcases List.mem_cons.1 member with rfl | member
    · exact ⟨earlier, schema, found⟩
    · exact ih later member

namespace Plan

/-- Every node of a plan is valid behind some others. -/
theorem exists_resolve (plan : Plan) {node : Node} (member : node ∈ plan.nodes) :
    ∃ before schema, node.resolve before = .ok schema :=
  exists_resolve_of_mem (validate_eq_ok_iff.1 plan.valid).2.1 member

/-- Equal directories and nodes make equal plans. -/
theorem ext_nodes {p q : Plan} (database : p.database = q.database) (nodes : p.nodes = q.nodes) :
    p = q := by
  obtain ⟨_, _, schemas, valid⟩ := p
  obtain ⟨_, _, schemas', valid'⟩ := q
  obtain rfl : _ = _ := database
  obtain rfl : _ = _ := nodes
  obtain rfl : schemas = schemas' := Except.ok.inj (valid.symm.trans valid')
  rfl

/-- A plan is made exactly of its own database and nodes. -/
theorem ofNodes_eq_ok_iff {database : String} {nodes : List Node} {plan : Plan} :
    Plan.ofNodes database nodes = .ok plan ↔ plan.database = database ∧ plan.nodes = nodes := by
  rw [Plan.ofNodes]
  -- the row types of a plan are determined by its nodes
  split
  · rename_i schemas valid
    constructor
    · rintro ⟨⟩
      exact ⟨rfl, rfl⟩
    · rintro ⟨sameDatabase, sameNodes⟩
      exact congrArg Except.ok (ext_nodes sameDatabase.symm sameNodes.symm)
  · rename_i error invalid
    constructor
    · rintro ⟨⟩
    · rintro ⟨-, rfl⟩
      cases plan.valid.symm.trans invalid

end Plan

end PlanCompiler
