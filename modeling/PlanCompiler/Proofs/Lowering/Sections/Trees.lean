import PlanCompiler.Proofs.Lowering.Sections.Operators
import PlanCompiler.Proofs.Plan.Spanning

/-!
# What plans declare

The operators of a plan have different nodes, so that their variables are distinct, and the tables
are apart from all of them.

## Main results

* `PlanTree.gives_isTidy_rows`, `PlanTree.gives_isTidy_batches`: the operators of a tree;
* `Plan.gives_isTidy_lowerScalar`, `Plan.gives_isTidy_lowerVectorised`: the sections of a plan.
-/

namespace PlanCompiler

/-- A name belongs to an operator at one of some positions. -/
def Name.IsAmong (positions : List Nat) (name : Name) : Prop :=
  ∃ node ∈ positions, name.operator? = some node

section

variable {own input left right : Sections} {node : Nat}
  {positions leftPositions rightPositions : List Nat}

/-- A variable among some nodes belongs to no other operator. -/
theorem Name.IsAmong.ne {name : Name} (isAmong : name.IsAmong positions) (new : node ∉ positions) :
    name.operator? ≠ some node := by
  obtain ⟨node', member, found⟩ := isAmong
  intro found'
  exact new (Option.some.inj (found.symm.trans found') ▸ member)

namespace Sections.IsTidy

/-- An operator declares variables of its own node besides those of its input. -/
theorem operator (tidy : own.IsTidy (·.operator? = some node))
    (inputTidy : input.IsTidy (·.IsAmong positions)) (new : node ∉ positions) :
    (own ++ input).IsTidy (·.IsAmong (node :: positions)) := by
  refine (tidy.append inputTidy ?_).mono ?_
  · exact fun name found isAmong => isAmong.ne new found
  · rintro name (found | ⟨node', member, found⟩)
    · exact ⟨node, List.mem_cons_self, found⟩
    · exact ⟨node', List.mem_cons_of_mem _ member, found⟩

/-- Two inputs are apart. -/
theorem inputs (leftTidy : left.IsTidy (·.IsAmong leftPositions))
    (rightTidy : right.IsTidy (·.IsAmong rightPositions))
    (apart : leftPositions.Disjoint rightPositions) :
    (left ++ right).IsTidy (·.IsAmong (leftPositions ++ rightPositions)) := by
  refine (leftTidy.append rightTidy ?_).mono ?_
  · rintro name ⟨node, member, found⟩ isAmong
    exact isAmong.ne (apart member) found
  · rintro name (⟨node, member, found⟩ | ⟨node, member, found⟩)
    · exact ⟨node, List.mem_append_left _ member, found⟩
    · exact ⟨node, List.mem_append_right _ member, found⟩

end Sections.IsTidy

end

/-! ## One row at a time -/

section

variable (checked : Bool)

/-- The operators of a tree declare distinct variables and release their pointers. -/
theorem PlanTree.gives_isTidy_rows {tree : PlanTree} (distinct : tree.positions.Nodup) :
    Gives (tree.rows checked) fun pipeline =>
      pipeline.sections.IsTidy (·.IsAmong tree.positions) := by
  induction tree with
  | scan site table columns => exact .ok .empty
  | filter site predicate input ih =>
    -- the variables of an operator are told from those of its inputs by its node
    obtain ⟨new, distinct⟩ := List.nodup_cons.1 distinct
    exact (ih distinct).bind fun pipeline tidy => RowPipeline.gives_sections_filter.imp
      fun _ same => same ▸ Sections.IsTidy.empty.operator tidy new
  | project site expressions input ih =>
    obtain ⟨new, distinct⟩ := List.nodup_cons.1 distinct
    exact (ih distinct).bind fun pipeline tidy => RowPipeline.gives_sections_project.imp
      fun _ same => same ▸ Sections.IsTidy.empty.operator tidy new
  | join site leftKey rightKey left right ihLeft ihRight =>
    obtain ⟨new, distinct⟩ := List.nodup_cons.1 distinct
    obtain ⟨distinctLeft, distinctRight, apart⟩ := List.nodup_append'.1 distinct
    refine Gives.bind (Join.gives_of site.node left.schema leftKey) fun join known => ?_
    have sameNode := known.1
    have own : join.sections.IsTidy (·.operator? = some site.node) :=
      (Join.isTidy_sections join).mono fun name isPart => sameNode ▸ isPart.operator? nofun
    refine (ihLeft distinctLeft).bind fun leftPipeline leftTidy =>
      (ihRight distinctRight).bind fun rightPipeline rightTidy =>
        RowPipeline.gives_sections_join.imp fun _ same => ?_
    rw [same, Sections.append_assoc]
    exact own.operator (leftTidy.inputs rightTidy apart) new
  | aggregate site groupBy aggregates input ih =>
    obtain ⟨new, distinct⟩ := List.nodup_cons.1 distinct
    refine Gives.bind (Groups.gives_of site.node input.schema groupBy aggregates)
      fun groups known => (ih distinct).bind fun pipeline tidy => ?_
    obtain ⟨sameNode, scalars⟩ := known
    have own := groups.isTidy_sections scalars
    rw [sameNode] at own
    exact RowPipeline.gives_sections_aggregate.imp fun _ same => same ▸ own.operator tidy new

/-! ## Batches of rows -/

/-- The buffers of a join for its rows are apart from those for the left input. -/
theorem Join.isTidy_batchSections {join : Join} {schema : Schema} {left right : Sections}
    {leftPositions rightPositions : List Nat} (leftTidy : left.IsTidy (·.IsAmong leftPositions))
    (rightTidy : right.IsTidy (·.IsAmong rightPositions))
    (new : join.node ∉ leftPositions ++ rightPositions)
    (apart : leftPositions.Disjoint rightPositions) :
    (join.sections ++ left ++ join.outputSections schema ++ right).IsTidy
      (·.IsAmong (join.node :: (leftPositions ++ rightPositions))) := by
  rw [List.mem_append, not_or] at new
  -- the node is not below itself, so that its names are apart from those of the inputs
  have withLeft := join.isTidy_sections.append leftTidy fun name isPart isAmong =>
    isAmong.ne new.1 (isPart.operator? nofun)
  have withOutputs := withLeft.append (join.isTidy_outputSections schema) fun name known isPart =>
    known.elim (fun isPart' => isPart'.apart (by decide) isPart)
      fun isAmong => isAmong.ne new.1 (isPart.operator? nofun)
  refine (withOutputs.append rightTidy ?_).mono ?_
  · rintro name ((isPart | isAmong) | isPart) isAmong'
    · exact isAmong'.ne new.2 (isPart.operator? nofun)
    · obtain ⟨node, member, found⟩ := isAmong
      exact isAmong'.ne (apart member) found
    · exact isAmong'.ne new.2 (isPart.operator? nofun)
  · rintro name (((isPart | ⟨node, member, found⟩) | isPart) | ⟨node, member, found⟩)
    · exact ⟨join.node, List.mem_cons_self, isPart.operator? nofun⟩
    · exact ⟨node, List.mem_cons_of_mem _ (List.mem_append_left _ member), found⟩
    · exact ⟨join.node, List.mem_cons_self, isPart.operator? nofun⟩
    · exact ⟨node, List.mem_cons_of_mem _ (List.mem_append_right _ member), found⟩

/-- The group numbers of a batch stand besides the hash table. -/
theorem Groups.isTidy_batchSections {groups : Groups} (grouped : groups.isGrouped = true) :
    (groups.sections ++ .vector "size_t" (groups.named "gid")).IsTidy
      (·.operator? = some groups.node) := by
  have vector := (Sections.IsSimple.vector (by decide) (by decide) :
    (Sections.vector "size_t" (groups.named "gid")).IsSimple).isTidy (List.nodup_singleton _)
  refine ((groups.isTidy_sections_grouped grouped).append vector ?_).mono ?_
  · rintro name (rfl | rfl) member <;> cases List.mem_singleton.1 member
  · rintro name ((rfl | rfl) | member)
    · rfl
    · rfl
    · rw [List.mem_singleton.1 member]
      rfl

namespace BatchPipeline

/-- The selection of a filter. -/
theorem isTidy_selection (node : Nat) :
    (Sections.vector "uint32_t" (.ofNode .filter node (some "sel"))).IsTidy
      (·.operator? = some node) := by
  refine ((Sections.IsSimple.vector (by decide) (by decide)).isTidy (List.nodup_singleton _)).mono
    fun name member => ?_
  rw [List.mem_singleton.1 member]
  rfl

/-- The columns of a projection are numbered. -/
theorem names_projectionSections (node : Nat) (types : Schema) :
    (projectionSections node types).names = Name.numbered .projection node "c" types.length := by
  rw [projectionSections, projectionArrays, List.map_map]
  exact Sections.names_concat_numbered fun _ _ => rfl

/-- The vectors of a projection belong to its node. -/
theorem isTidy_projectionSections (node : Nat) (types : Schema) :
    (projectionSections node types).IsTidy (·.operator? = some node) := by
  refine @Sections.IsTidy.mono _ (Name.IsPart .projection node [] 'c') _
    (@Sections.IsSimple.isTidy_parts _ _ _ (.concat ?_) "c" types.length [] [] _ rfl
      ((names_projectionSections node types).trans (List.append_nil _).symm) List.nodup_nil
      (List.forall_mem_nil _)) fun name isPart => isPart.operator? nofun
  intro sections member
  obtain ⟨⟨name, type⟩, column, rfl⟩ := List.mem_map.1 member
  obtain ⟨⟨type, k⟩, -, same⟩ := List.mem_map.1 column
  obtain ⟨rfl, rfl⟩ := Prod.mk.inj same
  exact .vector (isIdentifier_numbered (by decide) k) type.mem_elementTypes

end BatchPipeline

/-- The operators of a tree declare distinct variables and release their pointers. -/
theorem PlanTree.gives_isTidy_batches (simd : Bool) {tree : PlanTree}
    (distinct : tree.positions.Nodup) :
    Gives (tree.batches checked simd) fun pipeline =>
      pipeline.sections.IsTidy (·.IsAmong tree.positions) := by
  induction tree with
  | scan site table columns => exact .ok .empty
  | filter site predicate input ih =>
    obtain ⟨new, distinct⟩ := List.nodup_cons.1 distinct
    exact (ih distinct).bind fun pipeline tidy => BatchPipeline.gives_sections_filter.imp
      fun _ same => same ▸ (BatchPipeline.isTidy_selection site.node).operator tidy new
  | project site expressions input ih =>
    obtain ⟨new, distinct⟩ := List.nodup_cons.1 distinct
    exact (ih distinct).bind fun pipeline tidy => .of_bind fun types => .of_bind fun row =>
      .ok ((BatchPipeline.isTidy_projectionSections site.node types).operator tidy new)
  | join site leftKey rightKey left right ihLeft ihRight =>
    obtain ⟨new, distinct⟩ := List.nodup_cons.1 distinct
    obtain ⟨distinctLeft, distinctRight, apart⟩ := List.nodup_append'.1 distinct
    refine Gives.bind (Join.gives_of site.node left.schema leftKey) fun join known => ?_
    have sameNode := known.1
    -- the buffers stand behind the left input, so that what the join declares is not in one piece
    rw [positions, ← sameNode]
    rw [← sameNode] at new
    exact (ihLeft distinctLeft).bind fun leftPipeline leftTidy =>
      (ihRight distinctRight).bind fun rightPipeline rightTidy =>
        BatchPipeline.gives_sections_join.imp fun _ same =>
          same ▸ Join.isTidy_batchSections leftTidy rightTidy new apart
  | aggregate site groupBy aggregates input ih =>
    obtain ⟨new, distinct⟩ := List.nodup_cons.1 distinct
    refine Gives.bind (Groups.gives_of site.node input.schema groupBy aggregates)
      fun groups known => (ih distinct).bind fun pipeline tidy => ?_
    obtain ⟨sameNode, scalars⟩ := known
    split
    · rename_i grouped
      have own := groups.isTidy_batchSections grouped
      rw [sameNode] at own
      exact BatchPipeline.gives_sections_group.imp fun _ same => same ▸ own.operator tidy new
    · have own := groups.isTidy_sections scalars
      rw [sameNode] at own
      exact BatchPipeline.gives_sections_summarise.imp fun _ same => same ▸ own.operator tidy new

/-! ## Plans -/

/-- A function needs no variables. -/
theorem RowPrinter.isTidy_definition (schema : Schema) :
    Sections.IsTidy (fun _ => False) { definitions := [RowPrinter.definition schema] } :=
  { Sections.IsTidy.empty with
    regularDefinitions := by
      have plain : (Lexeme.scan .outside "static void".toList).head? =
          some (.word "static".toList) := by decide +kernel
      exact List.forall_mem_singleton.2 ⟨_, plain, by decide⟩
    defined := fun _ _ member => absurd member List.not_mem_nil
    ownsRecords := fun _ _ member => Definition.noConfusion (List.mem_singleton.1 member) }

/-- The record of a scan is the only thing that its table declares. -/
theorem Plan.record_mem_names_tableSections {plan : Plan} {node : Nat} {table : String}
    {columns : List ScanColumn} (found : plan.nodes[node]? = some (.scan table columns)) :
    Table.record node ∈ plan.tableSections.names := by
  rw [tableSections, Sections.names_concat, List.mem_flatMap]
  refine ⟨_, List.mem_map_of_mem (List.mk_mem_zipIdx_iff_getElem?.2 found), ?_⟩
  exact List.mem_singleton_self _

namespace Plan

variable (plan : Plan) (countOnly : Bool)

/-- The records of all scans are declared where the tables are. -/
theorem has_record {base : List Name} (known : plan.tableSections.IsVisible base) :
    ∀ node ∈ plan.tree.tables, Scope.Names.Has [base] (Table.record node) := by
  intro node member
  obtain ⟨table, columns, found⟩ := plan.exists_scan_of_mem_tables member
  exact known _ (record_mem_names_tableSections found)

/-- The tables of a plan come before the operators and are apart from them. -/
theorem isTidy_sections {sections : Sections}
    (tidy : sections.IsTidy (·.IsAmong plan.tree.positions)) :
    (plan.tableSections ++
      (if countOnly then {} else { definitions := [RowPrinter.definition plan.outputSchema] }) ++
        sections).IsTidy fun _ => True := by
  have printer : Sections.IsTidy (fun _ => False)
      (if countOnly then {} else { definitions := [RowPrinter.definition plan.outputSchema] }) := by
    split
    · exact .empty
    · exact RowPrinter.isTidy_definition _
  refine ((plan.isTidy_tableSections.append printer fun _ _ => id).append tidy ?_).mono
    fun _ _ => trivial
  -- no name is owned by a scan and by an operator, and the printer owns none
  rintro name (table | impossible) ⟨node, -, found⟩
  swap
  · exact impossible
  cases name with
  | ofNode owner => cases owner <;> first | cases table; done | cases found
  | tableType => cases found
  | _ => cases table

/-- What a plan declares row by row is tidy. -/
theorem gives_isTidy_lowerScalar :
    Gives (plan.lowerScalar checked countOnly) fun lowered => lowered.1.IsTidy fun _ => True :=
  (PlanTree.gives_isTidy_rows checked plan.nodup_positions_tree).bind fun _ tidy =>
    .ok (plan.isTidy_sections countOnly tidy)

/-- What a plan declares batch by batch is tidy. -/
theorem gives_isTidy_lowerVectorised (simd : Bool) :
    Gives (plan.lowerVectorised checked countOnly simd) fun lowered =>
      lowered.1.IsTidy fun _ => True :=
  (PlanTree.gives_isTidy_batches checked simd plan.nodup_positions_tree).bind fun _ tidy =>
    .ok (plan.isTidy_sections countOnly tidy)

end Plan

end

end PlanCompiler
