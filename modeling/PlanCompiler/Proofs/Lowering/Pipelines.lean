import PlanCompiler.Program.Basic
import PlanCompiler.Proofs.Lowering.Expr
import PlanCompiler.Proofs.Lowering.Groups
import PlanCompiler.Proofs.Plan.Tree

/-!
# Lowering of plans

Each operator hands rows on that have the types of its schema, in both stages. This is what the
operators above it rely on, so that no lookup of a column and no operator fails on a plan.

## Main definitions

* `RowPipeline.types`, `BatchPipeline.types`: the types of what is at hand in a pipeline.

## Main results

* `PlanTree.yields_rows`, `PlanTree.yields_batches`: the pipelines of a well-typed tree;
* `Plan.exists_generate`: every plan has a program.
-/

namespace PlanCompiler

/-- A join is set up if the left input has its key. -/
theorem Join.of_eq_ok (node : Nat) {left : Schema} {leftKey : UInt32} {type : DataType}
    (found : left[leftKey.toNat]? = some type) :
    Join.of node left leftKey =
      .ok { node, stored := left, key := leftKey.toNat, keyType := type } := by
  rw [Join.of, found]

/-- The key of a row is found if the row has its column. -/
theorem Join.keyOf_eq_ok {row : List Value} {rightKey : UInt32} {key : Value}
    (found : row[rightKey.toNat]? = some key) : Join.keyOf rightKey row = .ok key := by
  rw [keyOf, found]

/-- The key of a row is one of its values. -/
theorem Join.gives_keyOf {row : List Value} {P : Value → Prop} (all : ∀ value ∈ row, P value)
    (rightKey : UInt32) : Gives (Join.keyOf rightKey row) P := by
  rw [keyOf]
  split
  · rename_i key found
    exact .ok (all key (List.mem_of_getElem? found))
  · exact .error _

/-- The stored row that has been found has the types of the left input. -/
theorem Join.found_types (join : Join) : join.found.map Value.type = join.stored := by
  rw [found, List.map_map, map_zipIdx_eq_map (g := id) fun _ _ => rfl, List.map_id]

section

variable (checked : Bool) (site : Site) (groups : Groups)

/-! ## One row at a time -/

namespace RowPipeline

/-- The types of the values at hand. -/
def types (pipeline : RowPipeline) : Schema := pipeline.output.map Value.type

variable {input right : RowPipeline}

/-- A scan has the types of its columns. -/
theorem scan_types (columns : List ScanColumn) :
    (scan site columns).types = columns.map ScanColumn.type := by
  rw [types, scan, List.map_map, map_zipIdx_eq_map (g := ScanColumn.type) fun _ _ => rfl]

/-- A filter of a typed predicate succeeds and keeps the types of its input. -/
theorem yields_filter {predicate : Expr} {type : DataType}
    (typed : predicate.infer input.types = .ok type) :
    Yields (input.filter checked predicate) fun pipeline => pipeline.types = input.types :=
  (Expr.yields_lower checked typed).bind fun _ _ => .ok rfl

/-- A projection of typed expressions succeeds and has their types. -/
theorem yields_project {expressions : List Expr} {schema : Schema}
    (typed : List.Forall₂ (fun e type => e.infer input.types = .ok type) expressions schema) :
    Yields (input.project checked site expressions) fun pipeline => pipeline.types = schema := by
  refine (Expr.yields_lowerEach checked typed).bind fun row rowTypes => .ok ?_
  simp only [types, Pipeline.extend, List.map_map]
  exact (map_zipIdx_eq_map fun _ _ => rfl).trans rowTypes

/-- A join succeeds if the right input has its key, and has the types of both sides. -/
theorem yields_join (left : RowPipeline) (join : Join) {rightKey : UInt32} {type : DataType}
    (found : right.types[rightKey.toNat]? = some type) :
    Yields (left.join right checked join rightKey) fun pipeline =>
      pipeline.types = join.stored ++ right.types := by
  rw [types, List.getElem?_map, Option.map_eq_some_iff] at found
  obtain ⟨key, found, -⟩ := found
  rw [RowPipeline.join, Join.probeRow, Join.keyOf_eq_ok found]
  refine .ok ?_
  show (join.found ++ right.output).map Value.type = _
  rw [List.map_append, Join.found_types, types]

/-- An aggregation with groups succeeds and has the types of the keys and the aggregates. -/
theorem yields_group {groupBy : List UInt32} {keys : Schema}
    (grouped : List.Forall₂ (fun column type => input.types[column.toNat]? = some type)
      groupBy keys)
    (summarised : ∀ entry ∈ groups.aggregates, entry.1.resultType input.types = .ok entry.2) :
    Yields (input.group checked groups groupBy) fun pipeline =>
      pipeline.types = groups.keys ++ groups.aggregates.map (·.2) := by
  have taken : Yields (groups.gatherRow checked groupBy input.output) fun _ => True :=
    (Groups.yields_find groups grouped _).bind fun found _ =>
      (Yields.mapM fun entry member => Groups.yields_accumulate
        (summarised entry.1 (List.fst_mem_of_mem_zipIdx member)) _).bind fun _ _ => .ok trivial
  exact taken.bind fun _ _ => .ok (Groups.groupRow_types groups _)

/-- An aggregation without groups succeeds and has the types of the aggregates. -/
theorem yields_summarise
    (summarised : ∀ entry ∈ groups.aggregates, entry.1.resultType input.types = .ok entry.2) :
    Yields (input.summarise groups) fun pipeline =>
      pipeline.types = groups.aggregates.map (·.2) := by
  have taken : Yields (groups.summariseRow input.output) fun _ => True :=
    (Yields.mapM fun entry member => Groups.yields_accumulate
      (summarised entry.1 (List.fst_mem_of_mem_zipIdx member)) _).bind fun _ _ => .ok trivial
  exact taken.bind fun _ _ => .ok (Groups.totals_types groups)

/-- An aggregation succeeds, with groups or without. -/
theorem yields_aggregate {groupBy : List UInt32}
    (grouped : List.Forall₂ (fun column type => input.types[column.toNat]? = some type)
      groupBy groups.keys)
    (summarised : ∀ entry ∈ groups.aggregates, entry.1.resultType input.types = .ok entry.2) :
    Yields (if groups.isGrouped then input.group checked groups groupBy
        else input.summarise groups) fun pipeline =>
      pipeline.types = groups.keys ++ groups.aggregates.map (·.2) := by
  split
  · exact yields_group checked groups grouped summarised
  · rename_i ungrouped
    -- a plain summary has no group columns in front
    have noKeys : groups.keys = [] := by simpa [Groups.isGrouped] using ungrouped
    rw [noKeys]
    exact yields_summarise groups summarised

end RowPipeline

/-- The rows of a well-typed tree are available and have the types of its schema. -/
theorem PlanTree.yields_rows {tree : PlanTree} (typed : tree.WellTyped) :
    Yields (tree.rows checked) fun pipeline => pipeline.types = tree.schema := by
  induction tree with
  | scan site table columns => exact .ok ((RowPipeline.scan_types site columns).trans typed.symm)
  | filter site predicate input ih =>
    obtain ⟨inputTyped, condition, same⟩ := typed
    refine (ih inputTyped).bind fun pipeline types => ?_
    rw [← types] at condition same
    exact (RowPipeline.yields_filter checked condition).imp fun _ kept => kept.trans same.symm
  | project site expressions input ih =>
    obtain ⟨inputTyped, expressionsTyped⟩ := typed
    refine (ih inputTyped).bind fun pipeline types => ?_
    rw [← types] at expressionsTyped
    exact RowPipeline.yields_project checked site expressionsTyped
  | join site leftKey rightKey left right ihLeft ihRight =>
    obtain ⟨leftTyped, rightTyped, ⟨type, foundLeft, foundRight⟩, same⟩ := typed
    rw [rows, Join.of_eq_ok site.node foundLeft]
    -- the left rows come out of the table by the types that `Join.of` stored
    refine (ihLeft leftTyped).bind fun leftPipeline _ =>
      (ihRight rightTyped).bind fun rightPipeline types => ?_
    rw [← types] at foundRight same
    exact (RowPipeline.yields_join checked leftPipeline _ foundRight).imp
      fun _ both => both.trans same.symm
  | aggregate site groupBy aggregates input ih =>
    obtain ⟨inputTyped, keys, results, grouped, summarised, same⟩ := typed
    rw [rows, Groups.of_eq_ok site.node grouped summarised]
    refine (ih inputTyped).bind fun pipeline types => ?_
    rw [← types] at grouped summarised
    rw [← Groups.map_snd_zip_of_forall₂ summarised] at same
    exact (RowPipeline.yields_aggregate checked
      { node := site.node, keys, aggregates := aggregates.zip results } grouped
      (Groups.resultType_of_mem_zip summarised)).imp fun _ outputs => outputs.trans same.symm

/-! ## Batches of rows -/

/-- A row of a batch has the types of the batch's columns. -/
theorem Batch.row_types (batch : Batch) (index : Name) :
    (batch.row index).map Value.type = batch.columns.map BatchColumn.type := by
  rw [row, List.map_map]
  rfl

/-- The batch of slices has the types of the arrays. -/
theorem Batch.slices_types (base name : Name) (total : Code) (arrays : List (Code × DataType)) :
    (slices base name total arrays).2.columns.map BatchColumn.type = arrays.map (·.2) := by
  rw [slices, List.map_map]
  rfl

/-- The outputs of a join have the types of its schema. -/
theorem Join.outputs_types (join : Join) (schema : Schema) :
    (join.outputs schema).map (·.2) = schema := by
  rw [outputs, List.map_map, map_zipIdx_eq_map (g := id) fun _ _ => rfl, List.map_id]

namespace BatchPipeline

/-- The types of the columns at hand. -/
def types (pipeline : BatchPipeline) : Schema := pipeline.output.columns.map BatchColumn.type

/-- The arrays of a projection have the types that they are made for. -/
theorem projectionArrays_types (node : Nat) (schema : Schema) :
    (projectionArrays node schema).map (·.2) = schema := by
  rw [projectionArrays, List.map_map, map_zipIdx_eq_map (g := id) fun _ _ => rfl, List.map_id]

variable (simd : Bool) {input right : BatchPipeline}

/-- A scan in batches has the types of its columns. -/
theorem scan_types (columns : List ScanColumn) :
    (scan site columns).types = columns.map ScanColumn.type := by
  rw [types, scan, Batch.slices_types, List.map_map,
    map_zipIdx_eq_map (g := ScanColumn.type) fun _ _ => rfl]

/-- A filter of batches by a typed predicate succeeds and keeps the types of its input. -/
theorem yields_filter {predicate : Expr} {type : DataType}
    (typed : predicate.infer input.types = .ok type) :
    Yields (input.filter checked simd site predicate) fun pipeline =>
      pipeline.types = input.types := by
  rw [types, ← Batch.row_types _ (.ofNode .filter site.node (some "i"))] at typed
  exact (Expr.yields_lower checked typed).bind fun _ _ => .ok rfl

/-- A projection of batches to typed expressions succeeds and has their types. -/
theorem yields_project {expressions : List Expr} {schema : Schema}
    (typed : List.Forall₂ (fun e type => e.infer input.types = .ok type) expressions schema) :
    Yields (input.project checked simd site input.types expressions) fun pipeline =>
      pipeline.types = schema := by
  -- a projection of batches infers the types of its columns once more
  have inferred : (expressions.mapM fun e => (e.infer input.types).mapError
      fun error => LoweringError.illTyped error.message) = .ok schema :=
    mapM_eq_ok_iff.2 (typed.imp fun _ _ typed => mapError_eq_ok_iff.2 typed)
  rw [project, inferred]
  rw [types, ← Batch.row_types _ (.ofNode .projection site.node (some "i"))] at typed
  refine (Expr.yields_lowerEach checked typed).bind fun _ _ => .ok ?_
  rw [types, Pipeline.extend, List.map_map]
  exact projectionArrays_types site.node schema

/-- A join of batches succeeds if the right input has its key, and has the types of its schema. -/
theorem yields_join (left : BatchPipeline) (join : Join) (schema : Schema) {rightKey : UInt32}
    {type : DataType} (found : right.types[rightKey.toNat]? = some type) :
    Yields (left.join right checked join schema rightKey) fun pipeline =>
      pipeline.types = schema := by
  rw [types, ← Batch.row_types _ (join.named "i"), List.getElem?_map,
    Option.map_eq_some_iff] at found
  obtain ⟨key, found, -⟩ := found
  rw [BatchPipeline.join, Join.probeBatch, Join.keyOf_eq_ok found]
  refine .ok ?_
  show (join.slices schema).2.columns.map BatchColumn.type = schema
  rw [Join.slices, Batch.slices_types, List.map_map]
  exact Join.outputs_types join schema

/-- An aggregation of batches with groups succeeds and has the types of the keys and the aggregates.
-/
theorem yields_group {groupBy : List UInt32} {keys : Schema}
    (grouped : List.Forall₂ (fun column type => input.types[column.toNat]? = some type)
      groupBy keys)
    (summarised : ∀ entry ∈ groups.aggregates, entry.1.resultType input.types = .ok entry.2) :
    Yields (input.group checked groups groupBy) fun pipeline =>
      pipeline.types = groups.keys ++ groups.aggregates.map (·.2) := by
  -- within the loop over a batch the values at hand are the columns at one index
  rw [types, ← Batch.row_types _ (groups.named "i")] at grouped summarised
  have taken : Yields (groups.gatherBatch checked groupBy input.output) fun _ => True :=
    (Groups.yields_find groups grouped _).bind fun found _ =>
      (Yields.mapM (S := fun _ _ => True) fun entry member =>
        (Groups.yields_accumulate (summarised entry.1 (List.fst_mem_of_mem_zipIdx member)) _).bind
          fun _ _ => .ok trivial).bind fun _ _ => .ok trivial
  refine taken.bind fun _ _ => .ok ((Batch.slices_types _ _ groups.count _).trans ?_)
  rw [List.map_append, List.map_map, List.map_map, map_zipIdx_eq_map (g := id) fun _ _ => rfl,
    List.map_id, map_zipIdx_eq_map (g := Prod.snd) fun _ _ => rfl]

/-- Adding a batch to the accumulator of a typed aggregate succeeds. -/
theorem yields_accumulate {batch : Batch} {aggregate : Aggregate} {type : DataType}
    (typed : aggregate.resultType (batch.columns.map BatchColumn.type) = .ok type)
    (accumulator index : Name) :
    Yields (accumulate batch simd aggregate type accumulator index) fun _ => True := by
  rw [← Batch.row_types _ index] at typed
  cases aggregate with
  | count => exact .ok trivial
  | sum | min | max => exact (Groups.yields_accumulate typed _).bind fun _ _ => .ok trivial

/-- An aggregation of batches without groups succeeds and has the types of the aggregates. -/
theorem yields_summarise
    (summarised : ∀ entry ∈ groups.aggregates, entry.1.resultType input.types = .ok entry.2) :
    Yields (input.summarise simd groups) fun pipeline =>
      pipeline.types = groups.aggregates.map (·.2) := by
  have taken : Yields (groups.summariseBatch simd input.output) fun _ => True :=
    (Yields.mapM fun entry member => yields_accumulate simd
      (summarised entry.1 (List.fst_mem_of_mem_zipIdx member)) _ _).bind fun _ _ => .ok trivial
  refine taken.bind fun _ _ => .ok ?_
  show groups.totalBatch.columns.map BatchColumn.type = _
  rw [Groups.totalBatch, Groups.totalArrays, List.map_map, List.map_map,
    map_zipIdx_eq_map (g := Value.type) fun _ _ => rfl, Groups.totals_types]

/-- An aggregation of batches succeeds, with groups or without. -/
theorem yields_aggregate {groupBy : List UInt32}
    (grouped : List.Forall₂ (fun column type => input.types[column.toNat]? = some type)
      groupBy groups.keys)
    (summarised : ∀ entry ∈ groups.aggregates, entry.1.resultType input.types = .ok entry.2) :
    Yields (if groups.isGrouped then input.group checked groups groupBy
        else input.summarise simd groups) fun pipeline =>
      pipeline.types = groups.keys ++ groups.aggregates.map (·.2) := by
  split
  · exact yields_group checked groups grouped summarised
  · rename_i ungrouped
    have noKeys : groups.keys = [] := by simpa [Groups.isGrouped] using ungrouped
    rw [noKeys]
    exact yields_summarise groups simd summarised

end BatchPipeline

/-- The batches of a well-typed tree are available and have the types of its schema. -/
theorem PlanTree.yields_batches (simd : Bool) {tree : PlanTree} (typed : tree.WellTyped) :
    Yields (tree.batches checked simd) fun pipeline => pipeline.types = tree.schema := by
  induction tree with
  | scan site table columns => exact .ok ((BatchPipeline.scan_types site columns).trans typed.symm)
  | filter site predicate input ih =>
    obtain ⟨inputTyped, condition, same⟩ := typed
    refine (ih inputTyped).bind fun pipeline types => ?_
    rw [← types] at condition same
    exact (BatchPipeline.yields_filter checked site simd condition).imp
      fun _ kept => kept.trans same.symm
  | project site expressions input ih =>
    obtain ⟨inputTyped, expressionsTyped⟩ := typed
    refine (ih inputTyped).bind fun pipeline types => ?_
    rw [← types] at expressionsTyped ⊢
    exact BatchPipeline.yields_project checked site simd expressionsTyped
  | join site leftKey rightKey left right ihLeft ihRight =>
    obtain ⟨leftTyped, rightTyped, ⟨type, foundLeft, foundRight⟩, same⟩ := typed
    rw [batches, Join.of_eq_ok site.node foundLeft]
    -- as with single rows, the types of the left columns are those that `Join.of` has stored
    refine (ihLeft leftTyped).bind fun leftPipeline _ =>
      (ihRight rightTyped).bind fun rightPipeline types => ?_
    rw [← types] at foundRight
    exact BatchPipeline.yields_join checked leftPipeline _ site.schema foundRight
  | aggregate site groupBy aggregates input ih =>
    obtain ⟨inputTyped, keys, results, grouped, summarised, same⟩ := typed
    rw [batches, Groups.of_eq_ok site.node grouped summarised]
    refine (ih inputTyped).bind fun pipeline types => ?_
    rw [← types] at grouped summarised
    rw [← Groups.map_snd_zip_of_forall₂ summarised] at same
    exact (BatchPipeline.yields_aggregate checked
      { node := site.node, keys, aggregates := aggregates.zip results } simd grouped
      (Groups.resultType_of_mem_zip summarised)).imp fun _ outputs => outputs.trans same.symm

end

/-! ## Programs -/

namespace Plan

/-- Every plan is lowered row by row. -/
theorem yields_lowerScalar (plan : Plan) (checked countOnly : Bool) :
    Yields (plan.lowerScalar checked countOnly) fun _ => True :=
  (PlanTree.yields_rows checked plan.wellTyped_tree).bind fun _ _ => .ok trivial

/-- Every plan is lowered batch by batch. -/
theorem yields_lowerVectorised (plan : Plan) (checked countOnly simd : Bool) :
    Yields (plan.lowerVectorised checked countOnly simd) fun _ => True :=
  (PlanTree.yields_batches checked simd plan.wellTyped_tree).bind fun _ _ => .ok trivial

/-- Every request for a plan yields a program. -/
theorem yields_program (plan : Plan) (request : Request) (vectorSize : Nat) :
    Yields (plan.program request vectorSize) fun _ => True := by
  rw [program]
  cases request.stage with
  | scalar => exact (plan.yields_lowerScalar _ _).bind fun _ _ => .ok trivial
  | vectorised => exact (plan.yields_lowerVectorised _ _ _).bind fun _ _ => .ok trivial

/-- Every request for a plan yields a text. -/
theorem yields_generate (plan : Plan) (request : Request) (vectorSize : Nat) :
    Yields (plan.generate request vectorSize) fun _ => True :=
  (plan.yields_program request vectorSize).bind fun _ _ => .ok trivial

/-- Every plan has a program in both stages, with any flags and any number of rows in a batch. -/
theorem exists_generate (plan : Plan) (request : Request) (vectorSize : Nat) :
    ∃ source, plan.generate request vectorSize = .ok source := by
  obtain ⟨program, lowered, -⟩ := plan.yields_program request vectorSize
  exact ⟨_, by rw [generate, lowered]; rfl⟩

end Plan

end PlanCompiler
