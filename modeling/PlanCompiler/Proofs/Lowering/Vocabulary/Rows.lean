import PlanCompiler.Proofs.Lowering.Production.Rows
import PlanCompiler.Proofs.Lowering.Vocabulary.Operators

/-!
# Pipelines of rows within a vocabulary

An operator that handles rows calls the helper functions, the function for checked division if there
are checks, and the functions of its aggregation. There are no directives, and no conditional words
outside of what the request asks for.

## Main definitions

* `Pipeline.IsWithin`: a pipeline that hands on what keeps within the vocabulary;
* `PlanTree.IsKnown`: the functions of the aggregations of a tree are known.

## Main results

* `PlanTree.gives_isWithin_rows`: the pipeline of a tree.
-/

namespace PlanCompiler

variable {v : Vocabulary}

/-- The steps and the sections of a pipeline keep within a vocabulary, and so does what it hands
on. -/
structure Pipeline.IsWithin {ρ : Type} (within : ρ → Prop) (v : Vocabulary)
    (pipeline : Pipeline ρ) : Prop where
  sections : pipeline.sections.IsWithin v
  context : AllOf (Step.IsWithin v) pipeline.context
  output : within pipeline.output

namespace Pipeline.IsWithin

variable {ρ σ : Type} {within : ρ → Prop} {pipeline : Pipeline ρ}
  (known : pipeline.IsWithin within v)
include known

/-- Closing a pipeline around statements keeps within the vocabulary of both. -/
theorem close {statements : List Statement} (inside : AllOf (Statement.IsWithin v) statements) :
    AllOf (Statement.IsWithin v) (pipeline.close statements) :=
  Context.isWithin_fill known.context inside

/-- Further steps within a vocabulary keep a pipeline within it. -/
theorem extend {needs : Sections} (needsWithin : needs.IsWithin v) {steps : Context}
    (stepsWithin : AllOf (Step.IsWithin v) steps) {within' : σ → Prop} {output : σ}
    (outputWithin : within' output) :
    (pipeline.extend needs steps output).IsWithin within' v where
  sections := needsWithin.append known.sections
  context := AllOf.append_iff.2 ⟨known.context, stepsWithin⟩
  output := outputWithin

/-- Taking a pipeline in and going on with something else. -/
theorem gather {needs : Sections} (needsWithin : needs.IsWithin v) {taken : List Statement}
    (takenWithin : AllOf (Statement.IsWithin v) taken) {steps : Context}
    (stepsWithin : AllOf (Step.IsWithin v) steps) {within' : σ → Prop} {output : σ}
    (outputWithin : within' output) :
    (pipeline.gather needs taken steps output).IsWithin within' v where
  sections := needsWithin.append known.sections
  context := AllOf.append_iff.2
    ⟨Context.allOf_isWithin_runAll.2 (known.close takenWithin), stepsWithin⟩
  output := outputWithin

/-- Reading a pipeline to its end before another one. -/
theorem join {needs : Sections} (needsWithin : needs.IsWithin v) {stored index : List Statement}
    (storedWithin : AllOf (Statement.IsWithin v) stored)
    (indexWithin : AllOf (Statement.IsWithin v) index) {right : Pipeline σ} {within' : σ → Prop}
    (rightKnown : right.IsWithin within' v) :
    (pipeline.join right needs stored index).IsWithin within' v where
  sections := (needsWithin.append known.sections).append rightKnown.sections
  context := AllOf.append_iff.2 ⟨Context.allOf_isWithin_runAll.2
    (AllOf.append_iff.2 ⟨known.close storedWithin, indexWithin⟩), rightKnown.context⟩
  output := rightKnown.output

end Pipeline.IsWithin

/-- The functions of the aggregations of a tree are known. -/
def PlanTree.IsKnown (v : Vocabulary) (tree : PlanTree) : Prop :=
  Definition.functions tree.definitions ⊆ v.functions

namespace PlanTree

variable {site : Site} {left right input : PlanTree}

/-- The functions of a join's inputs are known if those of the join are. -/
theorem IsKnown.join {leftKey rightKey : UInt32}
    (known : (join site leftKey rightKey left right).IsKnown v) :
    left.IsKnown v ∧ right.IsKnown v := by
  rw [IsKnown, definitions, Definition.functions_append, List.append_subset] at known
  exact known

/-- An aggregation may find its groups if it has any. -/
theorem IsKnown.aggregate {groupBy : List UInt32} {aggregates : List Aggregate} {groups : Groups}
    (known : (aggregate site groupBy aggregates input).IsKnown v)
    (found : Groups.of site.node input.schema groupBy aggregates = .ok groups) :
    (groups.isGrouped = true → .groupsFind groups.node ∈ v.functions) ∧ input.IsKnown v := by
  rw [IsKnown, definitions_aggregate found, Definition.functions_append, List.append_subset,
    Groups.definitions_sections, Groups.definitions] at known
  refine ⟨fun grouped => known.1 ?_, known.2⟩
  rw [if_pos grouped]
  simp [Definition.functions, Definition.function?, Groups.findFunction, Groups.recordType,
    Groups.hashFunction, Groups.growFunction]

end PlanTree

/-- The search for the rows that agree with a row, and the pairs with it. -/
theorem Join.gives_isWithin_probeRow (join : Join) (helpers : v.HasHelpers) (checked : Bool)
    (rightKey : UInt32) {row : List Value} (within : AllOf (Value.IsWithin v) row) :
    Gives (join.probeRow checked rightKey row) fun probed =>
      AllOf (Step.IsWithin v) probed.context ∧ AllOf (Value.IsWithin v) probed.output :=
  (gives_keyOf within rightKey).bind fun _ keyWithin =>
    .ok ⟨join.isWithin_probe helpers checked keyWithin,
      AllOf.append_iff.2 ⟨join.isWithin_found, within⟩⟩

namespace Groups

variable {groups : Groups} {row : List Value} (within : AllOf (Value.IsWithin v) row)
include within

/-- The accumulators of an aggregation take in a row. -/
theorem gives_isWithin_updates {accumulator : Nat → Code}
    (accumulators : ∀ j, (accumulator j).IsWithin v) :
    Gives (groups.aggregates.zipIdx.mapM fun ((aggregate, _), j) =>
      accumulate aggregate (accumulator j) row)
      fun updates => AllOf (Statement.IsWithin v) updates.flatten := by
  refine (Gives.mapM (S := AllOf (Statement.IsWithin v)) fun ((aggregate, _), j) _ => ?_).imp
    fun updates => AllOf.flatten_iff.2
  exact gives_isWithin_accumulate within aggregate (accumulators j)

/-- Taking a row into the groups needs only the find function. -/
theorem gives_isWithin_gatherRow (defined : .groupsFind groups.node ∈ v.functions) (checked : Bool)
    (groupBy : List UInt32) :
    Gives (groups.gatherRow checked groupBy row) (AllOf (Statement.IsWithin v)) := by
  have group : (groups.named "g").IsWithin v := by simp (disch := first | decide | exact rfl)
  have slot (j : Nat) : (groups.slot j (groups.named "g")).IsWithin v := by simp [group]
  refine (gives_isWithin_find within defined group).bind fun found foundWithin =>
    (gives_isWithin_updates within slot).bind fun updates updatesWithin => .ok ?_
  simp only [AllOf.cons_iff, Statement.isWithin_block, Head.isWithin_bare, AllOf.append_iff,
    foundWithin, groups.isWithin_checkGroup checked group, updatesWithin, AllOf.nil, and_self]

/-- Taking a row into the accumulators without groups keeps within the row's vocabulary. -/
theorem gives_isWithin_summariseRow :
    Gives (groups.summariseRow row) (AllOf (Statement.IsWithin v)) := by
  have accumulator (j : Nat) : (groups.accumulator j : Code).IsWithin v := by simp
  refine (gives_isWithin_updates within accumulator).bind fun updates updatesWithin =>
    .ok (AllOf.append_iff.2 ⟨.ite ?_ .nil, updatesWithin⟩)
  simp (disch := first | decide | exact rfl)

end Groups

section

variable (checked : Bool) (site : Site)

namespace RowPipeline

/-- A pipeline that hands on rows within a vocabulary. -/
abbrev IsWithin (v : Vocabulary) (pipeline : RowPipeline) : Prop :=
  Pipeline.IsWithin (AllOf (Value.IsWithin v)) v pipeline

variable {input left right : RowPipeline} {groups : Groups}

/-- A scan keeps within any vocabulary. -/
theorem isWithin_scan (columns : List ScanColumn) : (scan site columns).IsWithin v where
  sections := .empty
  context := by simp (disch := first | decide | exact rfl) [scan]
  output := by
    simp (disch := first | decide | exact rfl | simp) [scan, Piece.isWithin_of_notMem_k]

section

variable {checked}
  (divides : checked = true → .helper .divide ∈ v.functions) (helpers : v.HasHelpers)
include divides helpers

/-- A filter keeps within the vocabulary of its input. -/
theorem gives_isWithin_filter (known : input.IsWithin v) (predicate : Expr) :
    Gives (input.filter checked predicate) (IsWithin v) := by
  refine (Expr.gives_isWithin_lower divides helpers known.output predicate).bind
    fun condition conditionWithin => .ok (known.extend .empty ?_ known.output)
  have condition : condition.code.IsWithin v := conditionWithin
  simp (disch := first | decide | exact rfl) [condition]

/-- A projection keeps within the vocabulary of its input. -/
theorem gives_isWithin_project (known : input.IsWithin v) (expressions : List Expr) :
    Gives (input.project checked site expressions) (IsWithin v) := by
  refine (Expr.gives_isWithin_lowerEach divides helpers known.output expressions).bind
    fun row rowWithin => .ok ?_
  -- a column is bound to a variable of its own, which is all that is read of it afterwards
  have columns : ∀ column ∈ row.zipIdx.map fun entry =>
      (Name.ofNode .projection site.node (some s!"v{entry.2}"), entry.1),
      column.1.IsWithin v ∧ column.2.code.IsWithin v :=
    List.forall_mem_map.2 fun entry member =>
      ⟨IsIdentifier.append (by decide) (isIdentifier_toString entry.2),
        rowWithin.of_mem_zipIdx member⟩
  have bound : AllOf (Statement.IsWithin v) (bindColumns (row.zipIdx.map fun entry =>
      (Name.ofNode .projection site.node (some s!"v{entry.2}"), entry.1))) := by
    refine AllOf.flatMap_iff.2 fun column member => ?_
    obtain ⟨name, value⟩ := columns column member
    simp (disch := first | decide | exact rfl) [name, value]
  have block : (Step.enter .bare).IsWithin v := trivial
  have steps : AllOf (Step.IsWithin v) (.enter .bare :: Context.runAll _) :=
    AllOf.cons_iff.2 ⟨block, Context.allOf_isWithin_runAll.2 bound⟩
  refine known.extend .empty steps (AllOf.map_iff.2 fun column member => ?_)
  exact Code.isWithin_name.2 (columns column member).1

omit divides in
/-- A join keeps within the vocabulary of its inputs. -/
theorem gives_isWithin_join (leftKnown : left.IsWithin v) (rightKnown : right.IsWithin v)
    (join : Join) (rightKey : UInt32) :
    Gives (left.join right checked join rightKey) (IsWithin v) := by
  refine (join.gives_isWithin_probeRow helpers checked rightKey rightKnown.output).bind
    fun probed probedWithin => .ok ?_
  exact leftKnown.join join.isWithin_sections (join.isWithin_store leftKnown.output)
    (join.isWithin_buildIndex helpers) (rightKnown.extend .empty probedWithin.1 probedWithin.2)

end

/-- An aggregation with groups keeps within a vocabulary that knows its find function. -/
theorem gives_isWithin_group (known : input.IsWithin v)
    (defined : .groupsFind groups.node ∈ v.functions) (groupBy : List UInt32) :
    Gives (input.group checked groups groupBy) (IsWithin v) := by
  refine (Groups.gives_isWithin_gatherRow known.output defined checked groupBy).bind
    fun taken takenWithin => .ok ?_
  have index : (groups.named "i").IsWithin v := by simp (disch := first | decide | exact rfl)
  have loop : AllOf (Step.IsWithin v) [.enter (.upTo (groups.named "i") groups.count)] := by
    simp [index]
  exact known.gather groups.isWithin_sections takenWithin loop
    (groups.isWithin_groupRow (Code.isWithin_name.2 index))

/-- An aggregation without groups keeps within the vocabulary of its input. -/
theorem gives_isWithin_summarise (known : input.IsWithin v) :
    Gives (input.summarise groups) (IsWithin v) := by
  refine (Groups.gives_isWithin_summariseRow known.output).bind fun taken takenWithin => .ok ?_
  have block : (Step.enter .bare).IsWithin v := trivial
  exact known.gather groups.isWithin_sections takenWithin (AllOf.cons_iff.2 ⟨block, .nil⟩)
    groups.isWithin_totals

end RowPipeline

variable {checked}
  (divides : checked = true → .helper .divide ∈ v.functions) (helpers : v.HasHelpers)
include divides helpers

/-- The pipeline of a tree keeps within a vocabulary that has its functions. -/
theorem PlanTree.gives_isWithin_rows {tree : PlanTree} (known : tree.IsKnown v) :
    Gives (tree.rows checked) (RowPipeline.IsWithin v) := by
  induction tree with
  | scan site table columns => exact .ok (RowPipeline.isWithin_scan site columns)
  | filter site predicate input ih =>
    exact (ih known).bind fun pipeline within =>
      RowPipeline.gives_isWithin_filter divides helpers within predicate
  | project site expressions input ih =>
    exact (ih known).bind fun pipeline within =>
      RowPipeline.gives_isWithin_project site divides helpers within expressions
  | join site leftKey rightKey left right ihLeft ihRight =>
    exact .of_bind fun join => (ihLeft known.join.1).bind fun _ leftWithin =>
      (ihRight known.join.2).bind fun _ rightWithin =>
        RowPipeline.gives_isWithin_join helpers leftWithin rightWithin join rightKey
  | aggregate site groupBy aggregates input ih =>
    -- which functions the groups ask for is known only from the groups themselves
    refine Gives.bind (fun _ => id) fun groups found => ?_
    obtain ⟨grouped, inputKnown⟩ := known.aggregate found
    refine (ih inputKnown).bind fun pipeline within => ?_
    split
    · rename_i isGrouped
      exact RowPipeline.gives_isWithin_group checked within (grouped isGrouped) groupBy
    · exact RowPipeline.gives_isWithin_summarise within

end

end PlanCompiler
