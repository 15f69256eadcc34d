import PlanCompiler.Lowering.Batch
import PlanCompiler.Proofs.Lowering.Blanking.Rows

/-!
# Batches of plans without their texts

Also where rows are handled in batches, the pipelines of a tree and of the blanked one differ in the
contents of literals only. Filters and projections are the operators whose code has expressions.

## Main results

* `PlanTree.endsAlike_batches_blanked`: the batches of a blanked tree.
-/

namespace PlanCompiler

namespace BatchPipeline

variable {input input' left left' right right' : BatchPipeline} (checked simd : Bool) (site : Site)

/-- A filter of batches and the one without strings are lowered alike. -/
theorem endsAlike_filter (alike : input.Alike input') (predicate : Expr) :
    EndsAlike Pipeline.Alike (input.filter checked simd site predicate)
      (input'.filter checked simd site predicate.blanked) := by
  rw [filter, filter, ← alike.output]
  refine (predicate.endsAlike_lower_blanked checked _).bind fun value value' same => .ok ?_
  refine alike.extend _ (.append (.refl [_]) (.append (.run (.block (.refl _) ?_)) (.refl [_]))) rfl
  split
  · exact .cons (.refl [_]) (.line (by simp [same.code]))
  · exact .control (by simp [same.code]) rfl

/-- A projection of batches and the one without strings are lowered alike. -/
theorem endsAlike_project (alike : input.Alike input') (inputSchema : Schema)
    (expressions : List Expr) :
    EndsAlike Pipeline.Alike (input.project checked simd site inputSchema expressions)
      (input'.project checked simd site inputSchema (Expr.blankedEach expressions)) := by
  -- literals have the same type whatever their contents
  have types : ((Expr.blankedEach expressions).mapM fun e => (e.infer inputSchema).mapError
        fun error => LoweringError.illTyped error.message) =
      expressions.mapM fun e => (e.infer inputSchema).mapError
        fun error => LoweringError.illTyped error.message := by
    rw [Expr.blankedEach_eq_map, List.mapM_map]
    exact congrArg expressions.mapM (funext fun e => by
      rw [Function.comp_apply, Expr.infer_blanked])
  rw [project, project, types, ← alike.output]
  refine .of_bind fun schema => ?_
  refine (Expr.endsAlike_lowerEach_blanked checked _ expressions).bind fun row row' related =>
    .ok (alike.extend _ (.run (.block (.refl _) ?_)) rfl)
  refine .map (forall₂_zip (R := Eq) (List.forall₂_refl _) related)
    fun (column, value) (column', value') ⟨sameColumn, same⟩ => ?_
  obtain rfl : column = column' := sameColumn
  exact .line (by simp [same.code])

variable {groups : Groups}

/-- A join of alike batches is lowered alike. -/
theorem endsAlike_join (leftAlike : left.Alike left') (rightAlike : right.Alike right')
    (join : Join) (schema : Schema) (rightKey : UInt32) :
    EndsAlike Pipeline.Alike (left.join right checked join schema rightKey)
      (left'.join right' checked join schema rightKey) := by
  rw [BatchPipeline.join, BatchPipeline.join, ← leftAlike.output, ← rightAlike.output]
  exact .of_bind fun probed => .ok (leftAlike.join (rightAlike.extend _ (.refl _) rfl) _ _ _)

/-- An aggregation with groups is lowered alike over alike batches. -/
theorem endsAlike_group (alike : input.Alike input') (groupBy : List UInt32) :
    EndsAlike Pipeline.Alike (input.group checked groups groupBy)
      (input'.group checked groups groupBy) := by
  rw [group, group, ← alike.output]
  exact .of_bind fun taken => .ok (alike.gather _ _ _ _)

/-- An aggregation without groups is lowered alike over alike batches. -/
theorem endsAlike_summarise (alike : input.Alike input') :
    EndsAlike Pipeline.Alike (input.summarise simd groups) (input'.summarise simd groups) := by
  rw [summarise, summarise, ← alike.output]
  exact .of_bind fun taken => .ok (alike.gather _ _ _ _)

end BatchPipeline

/-- The batches of a blanked tree. -/
theorem PlanTree.endsAlike_batches_blanked (checked simd : Bool) (tree : PlanTree) :
    EndsAlike Pipeline.Alike (tree.batches checked simd) (tree.blanked.batches checked simd) := by
  -- only filters and projections hold expressions; the others need the same schemas
  induction tree with
  | scan site table columns => exact .ok (.refl _)
  | filter site predicate input ih =>
    exact ih.bind fun pipeline pipeline' alike =>
      BatchPipeline.endsAlike_filter checked simd site alike predicate
  | project site expressions input ih =>
    rw [blanked, batches, batches, schema_blanked]
    exact ih.bind fun pipeline pipeline' alike =>
      BatchPipeline.endsAlike_project checked simd site alike input.schema expressions
  | join site leftKey rightKey left right ihLeft ihRight =>
    rw [blanked, batches, batches, schema_blanked]
    exact .of_bind fun join => ihLeft.bind fun _ _ leftAlike => ihRight.bind fun _ _ rightAlike =>
      BatchPipeline.endsAlike_join checked leftAlike rightAlike join site.schema rightKey
  | aggregate site groupBy aggregates input ih =>
    rw [blanked, batches, batches, schema_blanked]
    refine .of_bind fun groups => ih.bind fun pipeline pipeline' alike => ?_
    split
    · exact BatchPipeline.endsAlike_group checked alike groupBy
    · exact BatchPipeline.endsAlike_summarise simd alike

end PlanCompiler
