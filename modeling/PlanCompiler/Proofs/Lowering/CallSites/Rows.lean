import PlanCompiler.Proofs.Lowering.CallSites.Operators
import PlanCompiler.Proofs.Lowering.Production.Rows

/-!
# Call sites in pipelines of rows

A filter and a projection add the checked divisions of their expressions to those of their input,
each once: what they hand on are the rows of the input or the names of variables, so that no
operator behind them repeats a division. The other operators add none.

## Main definitions

* `Pipeline.HasSites`: the number of checked divisions in a pipeline that hands quiet rows on.

## Main results

* `PlanTree.gives_hasSites_rows`: the pipeline of a tree has a checked division for each integer
  division of the tree.
-/

namespace PlanCompiler

open Statement (codesOfAll)

/-- The number of checked divisions around the open place of a pipeline. There are none in its
sections, nor in what is at hand at the open place. -/
structure Pipeline.HasSites {ρ : Type} (quiet : ρ → Prop) (pipeline : Pipeline ρ) (n : Nat) :
    Prop where
  sections : pipeline.sections.IsQuiet
  context : Code.HaveSites pipeline.context.codes n
  output : quiet pipeline.output

namespace Pipeline.HasSites

variable {ρ σ : Type} {quiet : ρ → Prop} {pipeline : Pipeline ρ} {n : Nat}
  (counted : pipeline.HasSites quiet n)
include counted

/-- Quiet statements at the open place add nothing. -/
theorem close {statements : List Statement} (inside : AllOf Statement.IsQuiet statements) :
    Code.HaveSites (codesOfAll (pipeline.close statements)) n :=
  (counted.context.append (.of_isQuiet (Statement.allOf_codesOfAll.2 inside))).perm
    (Context.codesOfAll_fill_perm _ _)

/-- Further steps add their checked divisions to a pipeline's. -/
theorem extend {needs : Sections} (needsQuiet : needs.IsQuiet) {steps : Context} {m : Nat}
    (stepsCounted : Code.HaveSites steps.codes m) {quiet' : σ → Prop} {output : σ}
    (outputQuiet : quiet' output) :
    (pipeline.extend needs steps output).HasSites quiet' (n + m) where
  sections := needsQuiet.append counted.sections
  context := by
    rw [Pipeline.extend, Context.codes_append]
    exact counted.context.append stepsCounted
  output := outputQuiet

/-- Taking a pipeline in and going on with something else adds no checked division. -/
theorem gather {needs : Sections} (needsQuiet : needs.IsQuiet) {taken : List Statement}
    (takenQuiet : AllOf Statement.IsQuiet taken) {steps : Context}
    (stepsQuiet : AllOf Step.IsQuiet steps) {quiet' : σ → Prop} {output : σ}
    (outputQuiet : quiet' output) :
    (pipeline.gather needs taken steps output).HasSites quiet' n where
  sections := needsQuiet.append counted.sections
  context := by
    rw [Pipeline.gather, Context.codes_append, Context.codes_runAll]
    exact (counted.close takenQuiet).append_right (Context.allOf_codes.2 stepsQuiet)
  output := outputQuiet

/-- Two pipelines that are joined stand in the program once each. -/
theorem join {needs : Sections} (needsQuiet : needs.IsQuiet) {stored index : List Statement}
    (storedQuiet : AllOf Statement.IsQuiet stored) (indexQuiet : AllOf Statement.IsQuiet index)
    {right : Pipeline σ} {quiet' : σ → Prop} {m : Nat} (rightCounted : right.HasSites quiet' m) :
    (pipeline.join right needs stored index).HasSites quiet' (n + m) where
  sections := (needsQuiet.append counted.sections).append rightCounted.sections
  context := by
    rw [Pipeline.join, Context.codes_append, Context.codes_runAll, Statement.codesOfAll_append]
    exact ((counted.close storedQuiet).append_right
      (Statement.allOf_codesOfAll.2 indexQuiet)).append
      rightCounted.context
  output := rightCounted.output

end Pipeline.HasSites

/-- Quiet steps have no checked division. -/
theorem Context.haveSites_of_isQuiet {context : Context} (quiet : AllOf Step.IsQuiet context) :
    Code.HaveSites context.codes 0 :=
  .of_isQuiet (Context.allOf_codes.2 quiet)

namespace PlanTree

/-- The number of checked divisions that a tree is lowered to. -/
def checkedDivisions (checked : Bool) (tree : PlanTree) : Nat :=
  if checked then tree.integerDivisions else 0

section

variable (checked : Bool) (site : Site) (input : PlanTree)

/-- A filter counts its input and its predicate. -/
theorem checkedDivisions_filter (predicate : Expr) :
    (filter site predicate input).checkedDivisions checked =
      input.checkedDivisions checked + predicate.checkedDivisions checked input.schema := by
  cases checked with
  | false => rfl
  | true => exact Nat.add_comm _ _

/-- A projection counts its input and its expressions. -/
theorem checkedDivisions_project (expressions : List Expr) :
    (project site expressions input).checkedDivisions checked = input.checkedDivisions checked +
      if checked then Expr.integerDivisionsOfAll input.schema expressions else 0 := by
  cases checked with
  | false => rfl
  | true => exact Nat.add_comm _ _

/-- A join counts its two inputs. -/
theorem checkedDivisions_join (leftKey rightKey : UInt32) (left right : PlanTree) :
    (join site leftKey rightKey left right).checkedDivisions checked =
      left.checkedDivisions checked + right.checkedDivisions checked := by
  cases checked <;> rfl

end

end PlanTree

/-- The search for the rows that agree with a row, and the pairs with it, are quiet. -/
theorem Join.gives_isQuiet_probeRow (join : Join) (checked : Bool) (rightKey : UInt32)
    {row : List Value} (quiet : AllOf Value.IsQuiet row) :
    Gives (join.probeRow checked rightKey row) fun probed =>
      AllOf Step.IsQuiet probed.context ∧ AllOf Value.IsQuiet probed.output :=
  (gives_keyOf quiet rightKey).bind fun _ keyQuiet =>
    .ok ⟨join.isQuiet_probe checked keyQuiet, AllOf.append_iff.2 ⟨join.isQuiet_found, quiet⟩⟩

namespace Groups

variable (groups : Groups) {row : List Value} (quiet : AllOf Value.IsQuiet row)
include quiet

/-- The accumulators of an aggregation take in a row. -/
theorem gives_isQuiet_updates {accumulator : Nat → Code}
    (accumulators : ∀ j, (accumulator j).IsQuiet) :
    Gives (groups.aggregates.zipIdx.mapM fun ((aggregate, _), j) =>
      accumulate aggregate (accumulator j) row)
      fun updates => AllOf Statement.IsQuiet updates.flatten := by
  refine (Gives.mapM (S := AllOf Statement.IsQuiet) fun ((aggregate, _), j) _ => ?_).imp
    fun updates => AllOf.flatten_iff.2
  exact gives_isQuiet_accumulate quiet aggregate (accumulators j)

/-- Taking a quiet row into the groups is quiet. -/
theorem gives_isQuiet_gatherRow (checked : Bool) (groupBy : List UInt32) :
    Gives (groups.gatherRow checked groupBy row) (AllOf Statement.IsQuiet) := by
  have group : (groups.named "g").IsQuiet := by simp (disch := first | decide | exact rfl)
  have slot (j : Nat) : (groups.slot j (groups.named "g")).IsQuiet := by simp [group]
  refine (gives_isQuiet_find quiet group).bind fun found foundQuiet =>
    (groups.gives_isQuiet_updates quiet slot).bind fun updates updatesQuiet => .ok ?_
  simp only [AllOf.cons_iff, Statement.isQuiet_block, Head.isQuiet_bare, AllOf.append_iff,
    foundQuiet, groups.isQuiet_checkGroup checked group, updatesQuiet, AllOf.nil, and_self]

/-- Taking a quiet row into the accumulators without groups is quiet. -/
theorem gives_isQuiet_summariseRow :
    Gives (groups.summariseRow row) (AllOf Statement.IsQuiet) := by
  have accumulator (j : Nat) : (groups.accumulator j : Code).IsQuiet := by simp
  refine (groups.gives_isQuiet_updates quiet accumulator).bind fun updates updatesQuiet =>
    .ok (AllOf.append_iff.2 ⟨.ite ?_ .nil, updatesQuiet⟩)
  simp (disch := first | decide | exact rfl)

end Groups

section

variable (checked : Bool) (site : Site)

namespace RowPipeline

/-- The number of checked divisions in a pipeline of rows. -/
abbrev HasSites (pipeline : RowPipeline) (n : Nat) : Prop :=
  Pipeline.HasSites (AllOf Value.IsQuiet) pipeline n

variable {input left right : RowPipeline} {groups : Groups} {m n : Nat}

/-- A scan has no checked division. -/
theorem hasSites_scan (columns : List ScanColumn) : (scan site columns).HasSites 0 where
  sections := .empty
  context := Context.haveSites_of_isQuiet (by simp (disch := first | decide | exact rfl) [scan])
  output := by
    simp (disch := first | decide | exact rfl | simp) [scan, Piece.isQuiet_of_notMem_k]

/-- A filter adds the checked divisions of its predicate to those of its input. -/
theorem gives_hasSites_filter (counted : input.HasSites n) {predicate : Expr} {type : DataType}
    (typed : predicate.infer input.types = .ok type) :
    Gives (input.filter checked predicate) fun pipeline =>
      pipeline.HasSites (n + predicate.checkedDivisions checked input.types) := by
  refine (Expr.gives_hasSites_lower checked counted.output typed).bind
    fun condition conditionCounted => .ok ?_
  have steps : Code.HaveSites
      (Context.codes [.enter (.control ("if (" ++ condition.code ++ ")"))])
      (predicate.checkedDivisions checked input.types) := by
    refine @Code.HaveSites.cons_of_isQuiet [("\x7d" : Code)] _ _ ?_ ?_ ?_
    · simp (disch := first | decide | exact rfl) [conditionCounted.whole]
    · simp (disch := first | decide | exact rfl) [Code.sites_append_text, Code.sites_text_append,
        conditionCounted.sites, types]
    · simp (disch := first | decide | exact rfl)
  exact counted.extend .empty steps counted.output

/-- Variables are bound to the code of values, each of which stands there once. -/
theorem haveSites_bindColumns {columns : List (Name × Value)}
    (names : ∀ column ∈ columns, column.1.IsQuiet)
    (values : ∀ column ∈ columns, column.2.code.IsWhole) :
    Code.HaveSites (codesOfAll (bindColumns columns))
      (columns.map fun column => column.2.code.sites).sum := by
  induction columns with
  | nil => exact .nil
  | cons column rest ih =>
    obtain ⟨name, value⟩ := column
    obtain ⟨nameQuiet, names⟩ := List.forall_mem_cons.1 names
    obtain ⟨whole, values⟩ := List.forall_mem_cons.1 values
    have front : (value.type.representation ++ " const " ++ name ++ " = " : Code).IsQuiet := by
      simp (disch := first | decide | exact rfl) [nameQuiet]
    have declared : (value.type.representation ++ " const " ++ name ++
        (" = " ++ value.code ++ ";") : Code).IsWhole := by
      simpa (disch := first | decide | exact rfl) [whole] using front.isWhole
    -- the line that binds the column has the sites, and the one that mentions it has none
    rw [bindColumns, List.flatMap_cons, Statement.codesOfAll_append, List.map_cons, List.sum_cons]
    refine .append (.cons_of_isQuiet declared ?_ ?_) (ih names values)
    · simp (disch := first | decide | exact rfl) [Code.sites_append_text,
        Code.sites_append_text_append, front.sites_eq]
    · simp (disch := first | decide | exact rfl) [nameQuiet]

/-- A projection adds the checked divisions of its expressions to those of its input. -/
theorem gives_hasSites_project (counted : input.HasSites n) {expressions : List Expr}
    (typed : ∀ e ∈ expressions, ∃ type, e.infer input.types = .ok type) :
    Gives (input.project checked site expressions) fun pipeline =>
      pipeline.HasSites (n + if checked then Expr.integerDivisionsOfAll input.types expressions
        else 0) := by
  refine (Expr.gives_sum_sites_lowerEach checked counted.output typed).bind
    fun row known => .ok ?_
  obtain ⟨whole, sites⟩ := known
  have columns : ∀ column ∈ row.zipIdx.map fun entry =>
      (Name.ofNode .projection site.node (some s!"v{entry.2}"), entry.1),
      column.1.IsQuiet ∧ column.2.code.IsWhole :=
    List.forall_mem_map.2 fun entry member =>
      ⟨IsIdentifier.append (by decide) (isIdentifier_toString entry.2),
        AllOf.map_iff.1 whole entry.1 (List.fst_mem_of_mem_zipIdx member)⟩
  have bound := haveSites_bindColumns (fun column member => (columns column member).1)
    fun column member => (columns column member).2
  -- the names of the variables do not matter for the sum
  have sum : ((row.zipIdx.map fun entry =>
      (Name.ofNode .projection site.node (some s!"v{entry.2}"), entry.1)).map fun column =>
        column.2.code.sites).sum = ((row.map Value.code).map Code.sites).sum := by
    rw [List.map_map, List.map_map]
    exact congrArg List.sum (map_zipIdx_eq_map fun _ _ => rfl)
  rw [sum, sites] at bound
  rw [← Context.codes_runAll] at bound
  have braces : AllOf Code.IsQuiet (Step.codes (.enter .bare)) :=
    Step.isQuiet_enter.2 Head.isQuiet_bare
  have steps : Code.HaveSites (Context.codes (.enter .bare :: Context.runAll _)) _ :=
    .append_left braces bound
  refine counted.extend .empty steps (AllOf.map_iff.2 fun column member => ?_)
  exact Code.isMadeOf_name.2 (columns column member).1

/-- A join has the checked divisions of both its inputs. -/
theorem gives_hasSites_join (leftCounted : left.HasSites m) (rightCounted : right.HasSites n)
    (join : Join) (rightKey : UInt32) :
    Gives (left.join right checked join rightKey) fun pipeline => pipeline.HasSites (m + n) := by
  refine (join.gives_isQuiet_probeRow checked rightKey rightCounted.output).bind
    fun probed probedQuiet => .ok ?_
  have probe := Context.haveSites_of_isQuiet probedQuiet.1
  exact leftCounted.join join.isQuiet_sections (join.isQuiet_store leftCounted.output)
    join.isQuiet_buildIndex (rightCounted.extend .empty probe probedQuiet.2)

/-- An aggregation with groups has the checked divisions of its input. -/
theorem gives_hasSites_group (counted : input.HasSites n) (groupBy : List UInt32) :
    Gives (input.group checked groups groupBy) fun pipeline => pipeline.HasSites n := by
  refine (groups.gives_isQuiet_gatherRow counted.output checked groupBy).bind
    fun taken takenQuiet => .ok ?_
  have index : (groups.named "i").IsQuiet := by simp (disch := first | decide | exact rfl)
  have loop : AllOf Step.IsQuiet [.enter (.upTo (groups.named "i") groups.count)] := by
    simp [index]
  exact counted.gather groups.isQuiet_sections takenQuiet loop
    (groups.isQuiet_groupRow (Code.isMadeOf_name.2 index))

/-- An aggregation without groups has the checked divisions of its input. -/
theorem gives_hasSites_summarise (counted : input.HasSites n) :
    Gives (input.summarise groups) fun pipeline => pipeline.HasSites n := by
  refine (groups.gives_isQuiet_summariseRow counted.output).bind fun taken takenQuiet => .ok ?_
  exact counted.gather groups.isQuiet_sections takenQuiet
    (AllOf.cons_iff.2 ⟨Step.isQuiet_enter.2 Head.isQuiet_bare, .nil⟩) groups.isQuiet_totals

end RowPipeline

/-- The pipeline of a tree has a checked division for each integer division of the tree. -/
theorem PlanTree.gives_hasSites_rows {tree : PlanTree} (typed : tree.WellTyped) :
    Gives (tree.rows checked) fun pipeline =>
      pipeline.HasSites (tree.checkedDivisions checked) := by
  induction tree with
  | scan site table columns =>
    rw [checkedDivisions, integerDivisions, ite_self]
    exact .ok (RowPipeline.hasSites_scan site columns)
  | filter site predicate input ih =>
    obtain ⟨inputTyped, condition, -⟩ := typed
    refine ((yields_rows checked inputTyped).and (ih inputTyped)).gives.bind
      fun pipeline known => ?_
    obtain ⟨types, counted⟩ := known
    -- the condition is typed over the types of the rows at hand
    rw [← types] at condition
    rw [checkedDivisions_filter, ← types]
    exact RowPipeline.gives_hasSites_filter checked counted condition
  | project site expressions input ih =>
    obtain ⟨inputTyped, expressionsTyped⟩ := typed
    refine ((yields_rows checked inputTyped).and (ih inputTyped)).gives.bind
      fun pipeline known => ?_
    obtain ⟨types, counted⟩ := known
    rw [← types] at expressionsTyped
    rw [checkedDivisions_project, ← types]
    exact RowPipeline.gives_hasSites_project checked site counted fun e member =>
      (exists_of_mem_of_forall₂ expressionsTyped member).imp fun _ found => found.2
  | join site leftKey rightKey left right ihLeft ihRight =>
    rw [checkedDivisions_join]
    exact .of_bind fun join => (ihLeft typed.1).bind fun _ leftCounted =>
      (ihRight typed.2.1).bind fun _ rightCounted =>
        RowPipeline.gives_hasSites_join checked leftCounted rightCounted join rightKey
  | aggregate site groupBy aggregates input ih =>
    refine .of_bind fun groups => (ih typed.1).bind fun pipeline counted => ?_
    split
    · exact RowPipeline.gives_hasSites_group checked counted groupBy
    · exact RowPipeline.gives_hasSites_summarise counted

end

end PlanCompiler
