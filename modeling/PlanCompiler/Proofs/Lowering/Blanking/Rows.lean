import PlanCompiler.Lowering.Scalar
import PlanCompiler.Proofs.Lowering.Blanking.Expr

/-!
# Pipelines of plans without their texts

What a pipeline makes available at its open place are names and elements of arrays, and what it
needs outside of the statements does not depend on texts at all. So the pipelines of a tree and of
the blanked one have the same sections and the same output, and the code around the open place
differs in the contents of literals only.

## Main definitions

* `Pipeline.Alike`: pipelines that differ in the contents of literals only.

## Main results

* `PlanTree.endsAlike_rows_blanked`: the rows of a blanked tree.
-/

namespace PlanCompiler

/-- Pipelines that differ in the contents of the literals around their open place only. -/
structure Pipeline.Alike {ρ : Type} (pipeline pipeline' : Pipeline ρ) : Prop where
  sections : pipeline.sections = pipeline'.sections
  context : pipeline.context.Alike pipeline'.context
  output : pipeline.output = pipeline'.output

namespace Pipeline.Alike

variable {ρ σ : Type} {pipeline pipeline' : Pipeline ρ}

/-- Every pipeline is alike to itself. -/
theorem refl (pipeline : Pipeline ρ) : pipeline.Alike pipeline := ⟨rfl, .refl _, rfl⟩

variable (alike : pipeline.Alike pipeline')
include alike

/-- Alike pipelines around alike statements are alike. -/
theorem close {statements statements' : List Statement}
    (inside : Statement.Alike statements statements') :
    Statement.Alike (pipeline.close statements) (pipeline'.close statements') :=
  alike.context _ _ inside

/-- Alike pipelines with alike further steps are alike. -/
theorem extend (needs : Sections) {steps steps' : Context} (more : steps.Alike steps')
    {output output' : σ} (same : output = output') :
    (pipeline.extend needs steps output).Alike (pipeline'.extend needs steps' output') where
  sections := congrArg (needs ++ ·) alike.sections
  context := alike.context.append more
  output := same

/-- What takes in the same rows is alike. -/
theorem gather (needs : Sections) (taken : List Statement) (steps : Context) (output : σ) :
    (pipeline.gather needs taken steps output).Alike
      (pipeline'.gather needs taken steps output) where
  sections := congrArg (needs ++ ·) alike.sections
  context := .append (.runAll (alike.close (.refl _))) (.refl _)
  output := rfl

/-- What reads both inputs is alike if the inputs are. -/
theorem join {right right' : Pipeline σ} (rightAlike : right.Alike right') (needs : Sections)
    (stored index : List Statement) :
    (pipeline.join right needs stored index).Alike (pipeline'.join right' needs stored index) where
  sections := by
    show needs ++ pipeline.sections ++ right.sections =
      needs ++ pipeline'.sections ++ right'.sections
    rw [alike.sections, rightAlike.sections]
  context := .append (.runAll (.append (alike.close (.refl _)) (.refl _))) rightAlike.context
  output := rightAlike.output

end Pipeline.Alike

/-- Lists that are related one by one, each next to another one. -/
theorem forall₂_zip {α β : Type} {R : α → α → Prop} {S : β → β → Prop} {xs xs' : List α}
    {ys ys' : List β} (left : List.Forall₂ R xs xs') (right : List.Forall₂ S ys ys') :
    List.Forall₂ (fun a b => R a.1 b.1 ∧ S a.2 b.2) (xs.zip ys) (xs'.zip ys') := by
  induction left generalizing ys ys' with
  | nil => exact .nil
  | cons first _ ih =>
    cases right with
    | nil => exact .nil
    | cons second rest => exact .cons ⟨first, second⟩ (ih rest)

namespace RowPipeline

variable {input input' left left' right right' : RowPipeline} (checked : Bool) (site : Site)

/-- A filter and the one without strings are lowered alike. -/
theorem endsAlike_filter (alike : input.Alike input') (predicate : Expr) :
    EndsAlike Pipeline.Alike (input.filter checked predicate)
      (input'.filter checked predicate.blanked) := by
  rw [filter, filter, ← alike.output]
  refine (predicate.endsAlike_lower_blanked checked input.output).bind fun value value' same =>
    .ok (alike.extend {} (.enter (.control ?_)) rfl)
  simp [same.code]

/-- Columns with the same names and values that are alike. -/
theorem alike_bindColumns {columns columns' : List (Name × Value)}
    (related : List.Forall₂ (fun a b => a.1 = b.1 ∧ a.2.Alike b.2) columns columns') :
    Statement.Alike (bindColumns columns) (bindColumns columns') := by
  refine .flatMap related fun (name, value) (name', value') ⟨sameName, same⟩ => ?_
  obtain rfl : name = name' := sameName
  dsimp only
  rw [same.type]
  exact .cons (.declare _ name (by simp [same.code])) (.refl _)

/-- A projection and the one without strings are lowered alike. -/
theorem endsAlike_project (alike : input.Alike input') (expressions : List Expr) :
    EndsAlike Pipeline.Alike (input.project checked site expressions)
      (input'.project checked site (Expr.blankedEach expressions)) := by
  rw [project, project, ← alike.output]
  refine (Expr.endsAlike_lowerEach_blanked checked input.output expressions).bind
    fun row row' related => .ok ?_
  -- the names are the same, since they depend on node and column only
  have columns : List.Forall₂ (fun a b => a.1 = b.1 ∧ a.2.Alike b.2)
      (row.zipIdx.map fun entry =>
        (Name.ofNode .projection site.node (some s!"v{entry.2}"), entry.1))
      (row'.zipIdx.map fun entry =>
        (Name.ofNode .projection site.node (some s!"v{entry.2}"), entry.1)) := by
    rw [List.forall₂_map_left_iff, List.forall₂_map_right_iff, List.zipIdx_eq_zip_range',
      List.zipIdx_eq_zip_range', related.length_eq]
    refine (forall₂_zip (S := Eq) related (List.forall₂_refl _)).imp fun entry entry' known => ?_
    obtain ⟨same, sameIndex⟩ := known
    exact ⟨by rw [sameIndex], same⟩
  refine alike.extend {} (.append (.refl [.enter .bare]) (.runAll (alike_bindColumns columns))) ?_
  rw [← List.forall₂_eq_eq_eq, List.forall₂_map_left_iff, List.forall₂_map_right_iff]
  refine columns.imp fun column column' known => ?_
  obtain ⟨name, value⟩ := column
  obtain ⟨name', value'⟩ := column'
  obtain ⟨sameName, same⟩ := known
  obtain rfl : name = name' := sameName
  exact congrArg (Value.mk name) same.type

/-- A join of alike inputs is lowered alike. -/
theorem endsAlike_join (leftAlike : left.Alike left') (rightAlike : right.Alike right')
    (join : Join) (rightKey : UInt32) :
    EndsAlike Pipeline.Alike (left.join right checked join rightKey)
      (left'.join right' checked join rightKey) := by
  rw [RowPipeline.join, RowPipeline.join, ← leftAlike.output, ← rightAlike.output]
  exact .of_bind fun probed => .ok (leftAlike.join (rightAlike.extend {} (.refl _) rfl) _ _ _)

variable {groups : Groups}

/-- An aggregation with groups is lowered alike over alike inputs. -/
theorem endsAlike_group (alike : input.Alike input') (groupBy : List UInt32) :
    EndsAlike Pipeline.Alike (input.group checked groups groupBy)
      (input'.group checked groups groupBy) := by
  rw [group, group, ← alike.output]
  exact .of_bind fun taken => .ok (alike.gather _ _ _ _)

/-- An aggregation without groups is lowered alike over alike inputs. -/
theorem endsAlike_summarise (alike : input.Alike input') :
    EndsAlike Pipeline.Alike (input.summarise groups) (input'.summarise groups) := by
  rw [summarise, summarise, ← alike.output]
  exact .of_bind fun taken => .ok (alike.gather _ _ _ _)

end RowPipeline

/-- The rows of a blanked tree. -/
theorem PlanTree.endsAlike_rows_blanked (checked : Bool) (tree : PlanTree) :
    EndsAlike Pipeline.Alike (tree.rows checked) (tree.blanked.rows checked) := by
  -- joins and aggregations are set up from schemas, which blanking leaves as they are
  induction tree with
  | scan site table columns => exact .ok (.refl _)
  | filter site predicate input ih =>
    exact ih.bind fun pipeline pipeline' alike =>
      RowPipeline.endsAlike_filter checked alike predicate
  | project site expressions input ih =>
    exact ih.bind fun pipeline pipeline' alike =>
      RowPipeline.endsAlike_project checked site alike expressions
  | join site leftKey rightKey left right ihLeft ihRight =>
    rw [blanked, rows, rows, schema_blanked]
    exact .of_bind fun join => ihLeft.bind fun _ _ leftAlike => ihRight.bind fun _ _ rightAlike =>
      RowPipeline.endsAlike_join checked leftAlike rightAlike join rightKey
  | aggregate site groupBy aggregates input ih =>
    rw [blanked, rows, rows, schema_blanked]
    refine .of_bind fun groups => ih.bind fun pipeline pipeline' alike => ?_
    split
    · exact RowPipeline.endsAlike_group checked alike groupBy
    · exact RowPipeline.endsAlike_summarise alike

end PlanCompiler
