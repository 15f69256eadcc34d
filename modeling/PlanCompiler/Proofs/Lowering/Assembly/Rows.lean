import PlanCompiler.Proofs.Lowering.Assembly.Passages

/-!
# Putting the code of single rows together

`Plan.assembleRows` goes through the nodes of a plan and puts together the code that makes the rows
of a node available, one at a time.

## Main definitions

* `RowPipeline.scanFrame`, `RowPipeline.filterFrame` and so on: what each operator opens and closes;
* `Plan.assembleRows`: the code of a node, put together in any way.

## Main results

* `Plan.realises_assembleRows`: if an assembly is faithful, then what is put together for a node
  does what the pipeline of its tree says.
-/

namespace PlanCompiler

/-! ## Frames -/

namespace RowPipeline

variable (checked : Bool)

/-- The loop over the rows of a table. -/
def scanFrame (site : Site) (columns : List ScanColumn) : Frame (List Value) :=
  .of (scan site columns) [.closing] rfl

/-- A filter has the block of its condition open. -/
theorem gives_closing_filter (predicate : Expr) (row : List Value) :
    Gives (filter (.start row) checked predicate) (·.context.closing = [.closing]) :=
  .of_bind fun _ => .ok rfl

/-- The rows that satisfy a condition. -/
def filterFrame (predicate : Expr) (row : List Value) :
    Except LoweringError (Frame (List Value)) :=
  Frame.ofMade (filter (.start row) checked predicate) [.closing]
    (gives_closing_filter checked predicate row)

/-- A projection has only the block around its variables open. -/
theorem gives_closing_project (site : Site) (expressions : List Expr) (row : List Value) :
    Gives (project (.start row) checked site expressions) (·.context.closing = [.closing]) := by
  refine .of_bind fun values => .ok ?_
  show Context.closing (Context.runAll _) ++ [.closing] = [.closing]
  rw [Context.closing_runAll, List.nil_append]

/-- The rows computed by some expressions. -/
def projectFrame (site : Site) (expressions : List Expr) (row : List Value) :
    Except LoweringError (Frame (List Value)) :=
  Frame.ofMade (project (.start row) checked site expressions) [.closing]
    (gives_closing_project checked site expressions row)

/-- A join has the search along the chain open, and the block around it. -/
theorem gives_closing_probeRow (join : Join) (rightKey : UInt32) (row : List Value) :
    Gives (join.probeRow checked rightKey row) (·.context.closing = Join.probeClosing) :=
  .of_bind fun key => .ok (join.closing_probe checked key)

/-- The rows that agree with a row of the right input. -/
def probeFrame (join : Join) (rightKey : UInt32) (row : List Value) :
    Except LoweringError (Frame (List Value)) :=
  Frame.ofMade (join.probeRow checked rightKey row) Join.probeClosing
    (gives_closing_probeRow checked join rightKey row)

/-- The loop over the groups. -/
def groupFrame (groups : Groups) : Frame (List Value) :=
  let index := groups.named "i"
  .of { sections := {}, context := [.enter (.upTo index groups.count)]
        output := groups.groupRow index } [.closing] rfl

/-- The block for the single row that summarises all rows. -/
def summaryFrame (groups : Groups) : Frame (List Value) :=
  .of { sections := {}, context := [.enter .bare], output := groups.totals } [.closing] rfl

end RowPipeline

/-! ## Nodes -/

namespace Plan

open RowPipeline

/-- Puts the code for the rows of a node together from that for its inputs. -/
def assembleRows {τ : Type} (plan : Plan) (assembly : Assembly (List Value) τ) (checked : Bool)
    (k : Nat) : τ :=
  assembly.visited k <|
    match _ : plan.nodes[k]? with
    | none => assembly.nothing
    | some (.scan _ columns) => assembly.scan (scanFrame ⟨k, plan.schema k⟩ columns)
    | some (.filter input predicate) =>
      assembly.through (plan.assembleRows assembly checked input.toNat) (.plain {})
        (filterFrame checked predicate)
    | some (.project input expressions) =>
      assembly.through (plan.assembleRows assembly checked input.toNat) (.plain {})
        (projectFrame checked ⟨k, plan.schema k⟩ expressions)
    | some (.join left right leftKey rightKey) =>
      assembly.given (Join.of k (plan.schema left.toNat) leftKey) fun join =>
        assembly.join (plan.assembleRows assembly checked left.toNat) (.plain join.sections)
          join.storePassage join.indexPassage
          (assembly.through (plan.assembleRows assembly checked right.toNat) (.plain {})
            (probeFrame checked join rightKey))
    | some (.aggregate input groupBy aggregates) =>
      assembly.given (Groups.of k (plan.schema input.toNat) groupBy aggregates) fun groups =>
        if groups.isGrouped then
          assembly.gather (plan.assembleRows assembly checked input.toNat) groups.needs
            (groups.gatherRow checked groupBy) (groupFrame groups)
        else
          assembly.gather (plan.assembleRows assembly checked input.toNat) groups.needs
            groups.summariseRow (summaryFrame groups)
termination_by k
decreasing_by all_goals exact plan.lt_of_reads ‹_› _ (by simp [Node.inputs])

end Plan

/-! ## Operators -/

namespace RowPipeline

variable {checked : Bool} {input left right result : RowPipeline} {groups : Groups}

/-- A filter handles each row on its own. -/
theorem exists_of_filter {predicate : Expr} (made : input.filter checked predicate = .ok result) :
    ∃ frame, filterFrame checked predicate input.output = .ok frame ∧
      result = input.extend {} frame.pipeline.context frame.pipeline.output := by
  obtain ⟨condition, lowered, made⟩ := bind_eq_ok_iff.1 made
  cases made
  obtain ⟨frame, found, same⟩ := Frame.exists_ofMade (gives_closing_filter checked predicate _)
    (bind_eq_ok_iff.2 ⟨condition, lowered, rfl⟩)
  exact ⟨frame, found, by rw [same]; rfl⟩

/-- So does a projection. -/
theorem exists_of_project {site : Site} {expressions : List Expr}
    (made : input.project checked site expressions = .ok result) :
    ∃ frame, projectFrame checked site expressions input.output = .ok frame ∧
      result = input.extend {} frame.pipeline.context frame.pipeline.output := by
  obtain ⟨row, lowered, made⟩ := bind_eq_ok_iff.1 made
  cases made
  obtain ⟨frame, found, same⟩ := Frame.exists_ofMade
    (gives_closing_project checked site expressions _) (bind_eq_ok_iff.2 ⟨row, lowered, rfl⟩)
  exact ⟨frame, found, by rw [same]; rfl⟩

/-- A join stores its left rows and handles each right row on its own. -/
theorem exists_of_join {join : Join} {rightKey : UInt32}
    (made : left.join right checked join rightKey = .ok result) :
    ∃ frame, probeFrame checked join rightKey right.output = .ok frame ∧
      result = Pipeline.join left
        (right.extend {} frame.pipeline.context frame.pipeline.output) join.sections
        (join.store left.output) join.buildIndex := by
  obtain ⟨probed, handled, made⟩ := bind_eq_ok_iff.1 made
  cases made
  obtain ⟨frame, found, rfl⟩ := Frame.exists_ofMade
    (gives_closing_probeRow checked join rightKey _) handled
  exact ⟨frame, found, rfl⟩

end RowPipeline

namespace Plan

open RowPipeline

variable {τ : Type} {plan : Plan} {assembly : Assembly (List Value) τ}
  {Realises : τ → List Visit → RowPipeline → Prop} {checked : Bool}

/-- What is put together for a node does what the pipeline of its tree says. -/
theorem realises_assembleRows (faithful : assembly.IsFaithful Realises) {k : Nat} {tree : PlanTree}
    (unfolds : plan.Unfolds k tree) {pipeline : RowPipeline}
    (lowered : tree.rows checked = .ok pipeline) :
    Realises (plan.assembleRows assembly checked k) tree.visits pipeline := by
  induction unfolds generalizing pipeline with
  | scan found =>
    rw [assembleRows, found]
    cases lowered
    exact faithful.visited _ (faithful.scan _)
  | filter found _ ih =>
    -- whatever is to be done with the rows of the filter is done inside of what its input does
    rw [assembleRows, found]
    obtain ⟨input, inputLowered, made⟩ := bind_eq_ok_iff.1 lowered
    obtain ⟨frame, handled, rfl⟩ := exists_of_filter made
    exact faithful.visited _ (faithful.through (ih inputLowered) handled)
  | project found _ ih =>
    rw [assembleRows, found]
    obtain ⟨input, inputLowered, made⟩ := bind_eq_ok_iff.1 lowered
    obtain ⟨frame, handled, rfl⟩ := exists_of_project made
    exact faithful.visited _ (faithful.through (ih inputLowered) handled)
  | join found unfoldsLeft _ ihLeft ihRight =>
    rw [assembleRows, found]
    obtain ⟨join, planned, lowered⟩ := bind_eq_ok_iff.1 lowered
    obtain ⟨left, leftLowered, lowered⟩ := bind_eq_ok_iff.1 lowered
    obtain ⟨right, rightLowered, made⟩ := bind_eq_ok_iff.1 lowered
    obtain ⟨frame, handled, rfl⟩ := exists_of_join made
    -- the code takes the row type of what is stored from the plan, the pipeline from the tree
    rw [unfoldsLeft.schema_eq] at planned
    exact faithful.visited _ (faithful.given planned
      (faithful.join (ihLeft leftLowered) (faithful.through (ihRight rightLowered) handled)))
  | aggregate found unfolds ih =>
    rw [assembleRows, found]
    obtain ⟨groups, planned, lowered⟩ := bind_eq_ok_iff.1 lowered
    obtain ⟨input, inputLowered, made⟩ := bind_eq_ok_iff.1 lowered
    rw [unfolds.schema_eq] at planned
    refine faithful.visited _ (faithful.given planned ?_)
    split at made <;> rename_i grouped <;> obtain ⟨taken, gathered, made⟩ := bind_eq_ok_iff.1 made
    · cases made
      rw [if_pos grouped]
      exact faithful.gather (ih inputLowered) gathered
    · cases made
      rw [if_neg grouped]
      exact faithful.gather (ih inputLowered) gathered

end Plan

end PlanCompiler
