import PlanCompiler.Proofs.Lowering.Assembly.Passages

/-!
# Putting the code of batches together

`Plan.assembleBatches` goes through the nodes of a plan and puts together the code that makes the
rows of a node available in batches.

## Main definitions

* `BatchPipeline.scanFrame`, `BatchPipeline.filterFrame` and so on: what each operator opens and
  closes;
* `Plan.assembleBatches`: the code of a node, put together in any way.

## Main results

* `Plan.realises_assembleBatches`: if an assembly is faithful, then what is put together for a node
  does what the pipeline of its tree says.
-/

namespace PlanCompiler

/-! ## Frames -/

namespace BatchPipeline

variable (checked simd : Bool) (site : Site)

/-- The loop over the slices of a table. -/
def scanFrame (columns : List ScanColumn) : Frame Batch :=
  .of (scan site columns) [.closing] rfl

/-- A filter has the block open that tests for rows. The loop that selects them is over. -/
theorem gives_closing_filter (predicate : Expr) (batch : Batch) :
    Gives (filter (.start batch) checked simd site predicate) (·.context.closing = [.closing]) :=
  .of_bind fun _ => .ok rfl

/-- The rows that satisfy a condition. -/
def filterFrame (predicate : Expr) (batch : Batch) : Except LoweringError (Frame Batch) :=
  Frame.ofMade (filter (.start batch) checked simd site predicate) [.closing]
    (gives_closing_filter checked simd site predicate batch)

/-- A projection has no block open, since its loop over the batch is over. -/
theorem gives_closing_project (inputSchema : Schema) (expressions : List Expr) (batch : Batch) :
    Gives (project (.start batch) checked simd site inputSchema expressions)
      (·.context.closing = []) :=
  .of_bind fun _ => .of_bind fun _ => .ok rfl

/-- The rows computed by some expressions. -/
def projectFrame (inputSchema : Schema) (expressions : List Expr) (batch : Batch) :
    Except LoweringError (Frame Batch) :=
  Frame.ofMade (project (.start batch) checked simd site inputSchema expressions) []
    (gives_closing_project checked simd site inputSchema expressions batch)

/-- The loop over the slices of the groups. -/
def groupFrame (groups : Groups) : Frame Batch :=
  .of { sections := {}, context := groups.slices.1, output := groups.slices.2 } [.closing] rfl

/-- The block for the single row that summarises all rows. -/
def summaryFrame (groups : Groups) : Frame Batch :=
  .of { sections := {}, context := .enter .bare :: Context.runAll groups.storeTotals
        output := groups.totalBatch } [.closing]
    (by rw [Context.closing, Context.closing_runAll, List.nil_append])

end BatchPipeline

/-! ## Nodes -/

namespace Plan

open BatchPipeline

/-- Puts the code for the batches of a node together from that for its inputs. -/
def assembleBatches {τ : Type} (plan : Plan) (assembly : Assembly Batch τ) (checked simd : Bool)
    (k : Nat) : τ :=
  assembly.visited k <|
    match _ : plan.nodes[k]? with
    | none => assembly.nothing
    | some (.scan _ columns) => assembly.scan (scanFrame ⟨k, plan.schema k⟩ columns)
    | some (.filter input predicate) =>
      assembly.through (plan.assembleBatches assembly checked simd input.toNat)
        (.plain (.vector "uint32_t" (.ofNode .filter k (some "sel"))))
        (filterFrame checked simd ⟨k, plan.schema k⟩ predicate)
    | some (.project input expressions) =>
      let typed := expressions.mapM fun e =>
        (e.infer (plan.schema input.toNat)).mapError fun error => .illTyped error.message
      assembly.given typed fun types =>
        assembly.through (plan.assembleBatches assembly checked simd input.toNat)
          (.plain (projectionSections k types))
          (projectFrame checked simd ⟨k, plan.schema k⟩ (plan.schema input.toNat) expressions)
    | some (.join left right leftKey rightKey) =>
      assembly.given (Join.of k (plan.schema left.toNat) leftKey) fun join =>
        assembly.join (plan.assembleBatches assembly checked simd left.toNat)
          (.plain join.sections) join.storeBatchPassage join.indexPassage
          (assembly.through (plan.assembleBatches assembly checked simd right.toNat)
            (.plain (join.outputSections (plan.schema k)))
            (join.probeBatchFrame checked (plan.schema k) rightKey))
    | some (.aggregate input groupBy aggregates) =>
      assembly.given (Groups.of k (plan.schema input.toNat) groupBy aggregates) fun groups =>
        if groups.isGrouped then
          assembly.gather (plan.assembleBatches assembly checked simd input.toNat)
            (groups.needs ++ .plain (.vector "size_t" (groups.named "gid")))
            (groups.gatherBatch checked groupBy) (groupFrame groups)
        else
          assembly.gather (plan.assembleBatches assembly checked simd input.toNat) groups.needs
            (groups.summariseBatch simd) (summaryFrame groups)
termination_by k
decreasing_by all_goals exact plan.lt_of_reads ‹_› _ (by simp [Node.inputs])

end Plan

/-! ## Operators -/

namespace BatchPipeline

variable {checked simd : Bool} {input left right result : BatchPipeline} {site : Site}

/-- A filter handles each batch on its own. -/
theorem exists_of_filter {predicate : Expr}
    (made : input.filter checked simd site predicate = .ok result) :
    ∃ frame, filterFrame checked simd site predicate input.output = .ok frame ∧
      result = input.extend (.vector "uint32_t" (Name.ofNode .filter site.node (some "sel")))
        frame.pipeline.context frame.pipeline.output := by
  obtain ⟨condition, lowered, made⟩ := bind_eq_ok_iff.1 made
  cases made
  obtain ⟨frame, found, same⟩ := Frame.exists_ofMade
    (gives_closing_filter checked simd site predicate _)
    (bind_eq_ok_iff.2 ⟨condition, lowered, rfl⟩)
  exact ⟨frame, found, by rw [same]; rfl⟩

/-- So does a projection, whose vectors have the types of its expressions. -/
theorem exists_of_project {inputSchema : Schema} {expressions : List Expr}
    (made : input.project checked simd site inputSchema expressions = .ok result) :
    ∃ types frame,
      (expressions.mapM fun e => (e.infer inputSchema).mapError fun error =>
        LoweringError.illTyped error.message) = .ok types ∧
      projectFrame checked simd site inputSchema expressions input.output = .ok frame ∧
      result = input.extend (projectionSections site.node types) frame.pipeline.context
        frame.pipeline.output := by
  obtain ⟨types, typed, made⟩ := bind_eq_ok_iff.1 made
  obtain ⟨row, lowered, made⟩ := bind_eq_ok_iff.1 made
  cases made
  obtain ⟨frame, found, same⟩ := Frame.exists_ofMade
    (gives_closing_project checked simd site inputSchema expressions _)
    (bind_eq_ok_iff.2 ⟨types, typed, bind_eq_ok_iff.2 ⟨row, lowered, rfl⟩⟩)
  exact ⟨types, frame, typed, found, by rw [same]; rfl⟩

/-- A join stores its left batches and handles each right batch on its own. -/
theorem exists_of_join {join : Join} {schema : Schema} {rightKey : UInt32}
    (made : left.join right checked join schema rightKey = .ok result) :
    ∃ frame, join.probeBatchFrame checked schema rightKey right.output = .ok frame ∧
      result = Pipeline.join left
        (right.extend (join.outputSections schema) frame.pipeline.context frame.pipeline.output)
        join.sections (join.storeBatch left.output) join.buildIndex := by
  obtain ⟨probed, handled, made⟩ := bind_eq_ok_iff.1 made
  obtain ⟨key, found, handled⟩ := bind_eq_ok_iff.1 handled
  cases handled
  cases made
  exact ⟨_, bind_eq_ok_iff.2 ⟨key, found, rfl⟩, rfl⟩

end BatchPipeline

namespace Plan

open BatchPipeline

variable {τ : Type} {plan : Plan} {assembly : Assembly Batch τ}
  {Realises : τ → List Visit → BatchPipeline → Prop} {checked simd : Bool}

/-- What is put together for a node does what the pipeline of its tree says. -/
theorem realises_assembleBatches (faithful : assembly.IsFaithful Realises) {k : Nat}
    {tree : PlanTree} (unfolds : plan.Unfolds k tree) {pipeline : BatchPipeline}
    (lowered : tree.batches checked simd = .ok pipeline) :
    Realises (plan.assembleBatches assembly checked simd k) tree.visits pipeline := by
  induction unfolds generalizing pipeline with
  | scan found =>
    rw [assembleBatches, found]
    cases lowered
    exact faithful.visited _ (faithful.scan _)
  | filter found _ ih =>
    rw [assembleBatches, found]
    obtain ⟨input, inputLowered, made⟩ := bind_eq_ok_iff.1 lowered
    obtain ⟨frame, handled, rfl⟩ := exists_of_filter made
    exact faithful.visited _ (faithful.through (ih inputLowered) handled)
  | project found unfolds ih =>
    rw [assembleBatches, found]
    obtain ⟨input, inputLowered, made⟩ := bind_eq_ok_iff.1 lowered
    -- the vectors for the columns are needed before the input is asked for its batches
    rw [unfolds.schema_eq] at made
    obtain ⟨types, frame, typed, handled, rfl⟩ := exists_of_project made
    exact faithful.visited _ (faithful.given typed (faithful.through (ih inputLowered) handled))
  | join found unfoldsLeft _ ihLeft ihRight =>
    rw [assembleBatches, found]
    obtain ⟨join, planned, lowered⟩ := bind_eq_ok_iff.1 lowered
    obtain ⟨left, leftLowered, lowered⟩ := bind_eq_ok_iff.1 lowered
    obtain ⟨right, rightLowered, made⟩ := bind_eq_ok_iff.1 lowered
    obtain ⟨frame, handled, rfl⟩ := exists_of_join made
    -- the code takes the row type of what is stored from the plan, the pipeline from the tree
    rw [unfoldsLeft.schema_eq] at planned
    exact faithful.visited _ (faithful.given planned
      (faithful.join (ihLeft leftLowered) (faithful.through (ihRight rightLowered) handled)))
  | aggregate found unfolds ih =>
    rw [assembleBatches, found]
    obtain ⟨groups, planned, lowered⟩ := bind_eq_ok_iff.1 lowered
    obtain ⟨input, inputLowered, made⟩ := bind_eq_ok_iff.1 lowered
    rw [unfolds.schema_eq] at planned
    refine faithful.visited _ (faithful.given planned ?_)
    split at made <;> rename_i grouped <;> obtain ⟨taken, gathered, made⟩ := bind_eq_ok_iff.1 made
    · cases made
      rw [if_pos grouped]
      exact faithful.gather (ih inputLowered) gathered
    · cases made
      rw [if_neg grouped]
      exact faithful.gather (ih inputLowered) gathered

end Plan

end PlanCompiler
