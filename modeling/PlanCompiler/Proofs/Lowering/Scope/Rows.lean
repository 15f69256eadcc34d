import PlanCompiler.Proofs.Lowering.Pipelines
import PlanCompiler.Proofs.Lowering.Scope.Groups
import PlanCompiler.Proofs.Lowering.Scope.Join
import PlanCompiler.Proofs.Lowering.Sections.Trees

/-!
# Scopes of pipelines with one row at a time

The open place of a pipeline lies in scopes that see all variables at the top of the program, and
that see everything that the row at hand mentions. Operators that close a pipeline close its
scopes, so that the row of the next one mentions other variables.

## Main definitions

* `RowPipeline.IsScoped`: what is known of the open place of a pipeline.

## Main results

* `PlanTree.gives_isScoped_rows`: the pipeline of a tree;
* `Plan.gives_reads_lowerScalar`: the statements of a plan.
-/

namespace PlanCompiler

open Code Scope

/-- Printing a plain row is read, and the scopes stay. -/
theorem RowPrinter.reads_print {scopes : Names} {row : List Code}
    (plain : ∀ code ∈ row, code.IsPlain scopes) : Reads [RowPrinter.print row] scopes scopes := by
  have call := @isPlain_call scopes .printRow rfl ("kiln_out" :: row)
    (List.forall_mem_cons.2 ⟨(Fits.start _).isPlain, plain⟩)
  exact .line ((Fits.hole call |>.text _).isPlain rfl)

namespace RowPipeline

variable {base : List Name}

/-- The open place of a pipeline sees the variables at the top and all that its row mentions. -/
def IsScoped (base : List Name) (pipeline : RowPipeline) : Prop :=
  ∃ here outer, Closes [base] (here :: outer) pipeline.context ∧
    Names.Below [base] (here :: outer) ∧
    ∀ value ∈ pipeline.output, value.IsPlain (here :: outer)

/-- A scan is read where its table is known. -/
theorem isScoped_scan {site : Site} (known : Names.Has [base] (Table.record site.node))
    (columns : List ScanColumn) : (scan site columns).IsScoped base := by
  let index := Name.ofNode .row site.node none
  have word : IsIdentifier index.text := Name.isIdentifier_ofNode_none _ _
  have table := isPlain_variable known
  refine ⟨[index], [base], ?_, Names.below_enter _ _, ?_⟩
  · exact Closes.enter (.upTo word (table.member (by decide)))
  · intro value member
    obtain ⟨⟨column, k⟩, -, rfl⟩ := List.mem_map.1 member
    have column : IsMember s!"c{k}" := isMember_append_toString rfl rfl rfl k
    exact ((table.enter [index]).member column).element
      (isPlain_variable (Names.has_declared word [] [base]))

variable {checked : Bool} {input left right : RowPipeline}

/-- A filter is read where its input is. -/
theorem gives_isScoped_filter (ready : input.IsScoped base) (predicate : Expr) :
    Gives (input.filter checked predicate) (IsScoped base) := by
  obtain ⟨here, outer, closes, below, plain⟩ := ready
  refine (predicate.gives_isPlain_lower checked plain).bind fun condition conditionPlain => .ok ?_
  refine ⟨[], here :: outer, closes.append (.enter (.control ?_)),
    below.trans (Names.below_enter _ _), fun value member => (plain value member).enter []⟩
  exact (Fits.start _ |>.code conditionPlain |>.text _).isPlain rfl

/-- Binding a column declares its name. -/
theorem reads_bindColumn {scopes : Names} {name : Name} {value : Value} {node : Nat}
    (ofNode : name.node? = some node) (word : IsIdentifier name.text)
    (plain : value.IsPlain scopes) {here : List Name} (fresh : name ∉ here) :
    Reads
      [.declare (value.type.representation ++ " const ") name (" = " ++ value.code ++ ";"),
        .line ("(void)" ++ name ++ ";")]
      (here :: scopes) ((name :: here) :: scopes) := by
  have bound := isPlain_variable (Names.has_declared word here scopes)
  exact .cons (.declare ofNode word (Fits.start _ |>.code (plain.enter here) |>.text _) fresh
    value.type.isType_representation_const)
    (.line ((Fits.start _ |>.code bound |>.text _).isPlain rfl))

/-- A projection is read where its input is. -/
theorem gives_isScoped_project (ready : input.IsScoped base) (site : Site)
    (expressions : List Expr) :
    Gives (input.project checked site expressions) (IsScoped base) := by
  obtain ⟨here, outer, closes, below, plain⟩ := ready
  refine (Expr.gives_isPlain_lowerEach checked plain expressions).bind fun row rowPlain => .ok ?_
  let columns := row.zipIdx.map fun entry =>
    (Name.ofNode .projection site.node (some s!"v{entry.2}"), entry.1)
  -- the variables are numbered, so that none is declared twice in the scope of the columns
  have names : columns.map Prod.fst = Name.numbered .projection site.node "v" row.length := by
    rw [List.map_map]
    exact map_zipIdx_eq_map_range fun _ _ => rfl
  have word : ∀ column ∈ columns, IsIdentifier column.1.text ∧
      column.1.node? = some site.node ∧ column.2.IsPlain (here :: outer) := by
    intro column member
    obtain ⟨⟨value, k⟩, found, rfl⟩ := List.mem_map.1 member
    exact ⟨Name.isIdentifier_ofNode _ _ (isIdentifier_numbered (by decide) k), rfl,
      rowPlain value (List.fst_mem_of_mem_zipIdx found)⟩
  have binds : Reads (bindColumns columns) ([] :: here :: outer)
      (((columns.map Prod.fst).reverse ++ []) :: here :: outer) := by
    refine .declareAll (fun column member names fresh => ?_) ?_ fun _ _ => List.not_mem_nil
    · obtain ⟨word, ofNode, valuePlain⟩ := word column member
      exact reads_bindColumn ofNode word valuePlain fresh
    · rw [names]
      exact Name.nodup_numbered
  refine ⟨_, here :: outer, closes.append (.cons (.enter .bare) (.runAll binds)),
    below.trans (Names.below_enter _ _), fun value member => ?_⟩
  obtain ⟨column, found, rfl⟩ := List.mem_map.1 member
  refine isPlain_variable ⟨(word column found).1, _, List.mem_cons_self, ?_⟩
  rw [List.append_nil, List.mem_reverse]
  exact List.mem_map_of_mem found

/-- A row of the right input leads into the scopes around the rows that agree with it. -/
theorem gives_leads_probeRow {join : Join} {here : List Name} {outer : Names}
    (visible : join.IsVisible (here :: outer)) (stored : join.key < join.stored.length)
    {row : List Value} (plain : ∀ value ∈ row, value.IsPlain (here :: outer)) (rightKey : UInt32) :
    Gives (join.probeRow checked rightKey row) fun probed =>
      Leads (here :: outer) (join.inside (here :: outer)) probed.context ∧
        ∀ value ∈ probed.output, value.IsPlain (join.inside (here :: outer)) := by
  refine (Join.gives_keyOf plain rightKey).bind fun key keyPlain =>
    .ok ⟨Join.leads_probe visible stored checked keyPlain, fun value member => ?_⟩
  rcases List.mem_append.1 member with member | member
  · exact Join.isPlain_found visible value member
  · exact (plain value member).mono (join.below_inside _)

/-- The left rows are stored, and the search for a right row is where the pipeline goes on. -/
theorem gives_isScoped_join {join : Join} (leftReady : left.IsScoped base)
    (rightReady : right.IsScoped base) (visible : join.IsVisible [base])
    (width : left.output.length = join.stored.length) (stored : join.key < join.stored.length)
    (rightKey : UInt32) : Gives (left.join right checked join rightKey) (IsScoped base) := by
  obtain ⟨here, outer, closes, below, plain⟩ := rightReady
  refine (gives_leads_probeRow (visible.mono below) stored plain rightKey).bind
    fun probed known => .ok ?_
  obtain ⟨leads, probedPlain⟩ := known
  refine ⟨_, _, .before ?_ (closes.append leads), below.trans (join.below_inside _), probedPlain⟩
  -- the left input is stored and closed before the index is built
  obtain ⟨leftHere, leftOuter, leftCloses, leftBelow, leftPlain⟩ := leftReady
  exact (leftCloses _ (Join.reads_store (visible.mono leftBelow) width leftPlain).stays).append
    (Join.reads_buildIndex visible stored)

variable {groups : Groups}

/-- Taking a row into its group declares nothing outside of a block of its own. -/
theorem gives_reads_gatherRow {here : List Name} {outer : Names}
    (known : Names.Has (here :: outer) groups.record) {row : List Value}
    (plain : ∀ value ∈ row, value.IsPlain (here :: outer)) (groupBy : List UInt32) :
    Gives (groups.gatherRow checked groupBy row) fun taken =>
      Reads taken (here :: outer) (here :: outer) := by
  have inBlock := known.enter []
  have plainInBlock : ∀ value ∈ row, value.IsPlain ([] :: here :: outer) :=
    fun value member => (plain value member).enter []
  have groupWord : IsIdentifier (groups.named "g").text := groups.isIdentifier_named (by decide)
  -- the position of the group is declared in a block of its own
  have group := Names.has_declared groupWord [] (here :: outer)
  have below := Names.below_declare (groups.named "g") [] (here :: outer)
  refine (Groups.gives_reads_find inBlock plainInBlock groupBy (by decide)
    List.not_mem_nil).bind fun found readsFound => ?_
  refine (Gives.mapM (S := fun update => Reads update _ _) fun entry _ =>
    Groups.gives_reads_accumulate (fun value member => (plainInBlock value member).mono below) _
      (Groups.isPlain_slot (inBlock.mono below) (isPlain_variable group) _)).bind
        fun updates readsUpdates => .ok ?_
  exact .block .bare ((readsFound.append
    (Groups.reads_checkGroup checked (inBlock.mono below) group)).append (.flatten readsUpdates))

/-- Taking a row into the summary of all rows declares nothing. -/
theorem gives_reads_summariseRow {scopes : Names} (visible : groups.IsVisible scopes)
    (ungrouped : groups.isGrouped = false) {row : List Value}
    (plain : ∀ value ∈ row, value.IsPlain scopes) :
    Gives (groups.summariseRow row) fun taken => Reads taken scopes scopes := by
  refine (Gives.mapM (S := fun update => Reads update scopes scopes) ?_).bind
    fun updates readsUpdates => .ok ?_
  · rintro ⟨⟨aggregate, type⟩, j⟩ member
    exact Groups.gives_reads_accumulate plain aggregate
      (isPlain_variable (visible.accumulator ungrouped j (lt_of_mem_zipIdx member)))
  -- rows are only counted where an extreme could have none
  have counted : Reads (if groups.countsRows then [.line (groups.named "rows" ++ "++;")] else [])
      scopes scopes := by
    split
    · rename_i counts
      have rows := isPlain_variable (visible.rows counts)
      exact .line ((Fits.hole rows |>.text _).isPlain rfl)
    · exact .nil
  exact counted.append (.flatten readsUpdates)

/-- An aggregation with groups is read where its input is and its groups are visible. -/
theorem gives_isScoped_group (ready : input.IsScoped base) (visible : groups.IsVisible [base])
    (grouped : groups.isGrouped = true) (groupBy : List UInt32) :
    Gives (input.group checked groups groupBy) (IsScoped base) := by
  obtain ⟨here, outer, closes, below, plain⟩ := ready
  have recordKnown := visible.record grouped
  have indexWord : IsIdentifier (groups.named "i").text := groups.isIdentifier_named (by decide)
  refine (gives_reads_gatherRow (recordKnown.mono below) plain groupBy).bind
    fun taken reads => .ok ?_
  -- the groups are read when the scopes of the input are closed, so only the top is seen there
  have count : groups.count.IsPlain [base] := (isPlain_variable recordKnown).member (by decide)
  refine ⟨[groups.named "i"], [base],
    .before (closes _ reads.stays) (.enter (.upTo indexWord count)),
    Names.below_enter _ _, ?_⟩
  exact Groups.isPlain_groupRow (recordKnown.enter _)
    (isPlain_variable (Names.has_declared indexWord [] [base]))

/-- An aggregation without groups is read where its input is and its accumulators are visible. -/
theorem gives_isScoped_summarise (ready : input.IsScoped base) (visible : groups.IsVisible [base])
    (ungrouped : groups.isGrouped = false) : Gives (input.summarise groups) (IsScoped base) := by
  obtain ⟨here, outer, closes, below, plain⟩ := ready
  refine (gives_reads_summariseRow (visible.mono below) ungrouped plain).bind
    fun taken reads => .ok ?_
  -- the input is closed before the totals, which are read at the top
  refine ⟨[], [base], .before (closes _ reads.stays) (.enter .bare), Names.below_enter _ _, ?_⟩
  exact Groups.isPlain_totals (visible.mono (Names.below_enter _ _)) ungrouped

end RowPipeline

/-- If it is known which sections an operator leads to, these may be assumed to be visible. -/
theorem Sections.IsVisible.assume {ρ : Type} {x : Except LoweringError (Pipeline ρ)}
    {sections : Sections} {base : List Name} {Q : Pipeline ρ → Prop}
    (leads : Gives x (·.sections = sections)) (h : sections.IsVisible base → Gives x Q) :
    Gives x fun pipeline => pipeline.sections.IsVisible base → Q pipeline :=
  Gives.assume (leads.imp fun _ same known => same ▸ known) h

/-- The pipeline of a tree sees the variables at the top of the program if these are all that its
operators need. -/
theorem PlanTree.gives_isScoped_rows (checked : Bool) {base : List Name} {tree : PlanTree}
    (typed : tree.WellTyped) (tables : ∀ node ∈ tree.tables, Names.Has [base] (Table.record node)) :
    Gives (tree.rows checked) fun pipeline =>
      pipeline.sections.IsVisible base → pipeline.IsScoped base := by
  induction tree with
  | scan site table columns =>
    exact .ok fun _ => RowPipeline.isScoped_scan (tables _ (List.mem_singleton_self _)) columns
  | filter site predicate input ih =>
    exact (ih typed.1 tables).bind fun pipeline ready =>
      Sections.IsVisible.assume RowPipeline.gives_sections_filter fun known =>
        RowPipeline.gives_isScoped_filter (ready known) predicate
  | project site expressions input ih =>
    exact (ih typed.1 tables).bind fun pipeline ready =>
      Sections.IsVisible.assume RowPipeline.gives_sections_project fun known =>
        RowPipeline.gives_isScoped_project (ready known) site expressions
  | join site leftKey rightKey left right ihLeft ihRight =>
    obtain ⟨leftTyped, rightTyped, -, -⟩ := typed
    obtain ⟨leftTables, rightTables⟩ := List.forall_mem_append.1 tables
    refine (Join.gives_of site.node left.schema leftKey).bind fun join known => ?_
    obtain ⟨-, sameStored, stored⟩ := known
    -- the left rows have as many values as the join has columns, since the tree is well typed
    refine ((yields_rows checked leftTyped).and (ihLeft leftTyped leftTables)).gives.bind
      fun leftPipeline known => ?_
    obtain ⟨types, leftReady⟩ := known
    have width : leftPipeline.output.length = join.stored.length := by
      rw [sameStored, ← types, RowPipeline.types, List.length_map]
    refine (ihRight rightTyped rightTables).bind fun rightPipeline rightReady =>
      Sections.IsVisible.assume RowPipeline.gives_sections_join fun known => ?_
    obtain ⟨known, rightKnown⟩ := Sections.isVisible_append.1 known
    obtain ⟨ownKnown, leftKnown⟩ := Sections.isVisible_append.1 known
    exact RowPipeline.gives_isScoped_join (leftReady leftKnown) (rightReady rightKnown)
      (Join.isVisible_of_names ownKnown) width stored rightKey
  | aggregate site groupBy aggregates input ih =>
    refine Gives.of_bind fun groups => (ih typed.1 tables).bind fun pipeline ready =>
      Sections.IsVisible.assume RowPipeline.gives_sections_aggregate fun known => ?_
    obtain ⟨ownKnown, inputKnown⟩ := Sections.isVisible_append.1 known
    have visible := Groups.isVisible_of_names ownKnown
    split
    · rename_i grouped
      exact RowPipeline.gives_isScoped_group (ready inputKnown) visible grouped groupBy
    · rename_i ungrouped
      exact RowPipeline.gives_isScoped_summarise (ready inputKnown) visible
        (Bool.not_eq_true _ ▸ ungrouped)

namespace Plan

variable (plan : Plan)

/-- The last check before a result. -/
theorem reads_check {scopes : Names} (checked : Bool) :
    Reads (checkFault checked) scopes scopes := by
  rw [checkFault]
  split
  · exact .line ((Fits.start _).isPlain rfl)
  · exact .nil

/-- The statements of a plan leave the scope of the variables at the top as it is. -/
theorem gives_reads_lowerScalar (checked countOnly : Bool) (base : List Name) :
    Gives (plan.lowerScalar checked countOnly) fun lowered =>
      lowered.1.IsVisible base → Reads lowered.2 [base] [base] := by
  have tables : Gives (plan.lowerScalar checked countOnly) fun lowered =>
      lowered.1.IsVisible base → plan.tableSections.IsVisible base :=
    .of_bind fun pipeline => .ok fun known =>
      (Sections.isVisible_append.1 (Sections.isVisible_append.1 known).1).1
  -- the tables have to be known before the operators are gone through
  suffices body : plan.tableSections.IsVisible base →
      Gives (plan.lowerScalar checked countOnly) fun lowered =>
        lowered.1.IsVisible base → Reads lowered.2 [base] [base] from
    (tables.assume body).imp fun _ reads known => reads known known
  intro tablesKnown
  refine (PlanTree.gives_isScoped_rows checked plan.wellTyped_tree
    (plan.has_record tablesKnown)).bind fun pipeline ready => .ok fun known => ?_
  obtain ⟨here, outer, closes, below, plain⟩ := ready (Sections.isVisible_append.1 known).2
  refine closes _ (((reads_check checked).append ?_).stays)
  split
  · exact .line ((Fits.start _).isPlain rfl)
  · exact RowPrinter.reads_print (List.forall_mem_map.2 plain)

end Plan

end PlanCompiler
