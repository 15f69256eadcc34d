import PlanCompiler.Proofs.Lowering.Sections.Operators
import PlanCompiler.Proofs.Lowering.Vocabulary.Batches
import PlanCompiler.Proofs.Plan.Spanning

/-!
# Plans within a vocabulary

A plan defines a loader for each table, a function that prints rows unless they are only counted,
and three functions for each grouped aggregation. All of them are different, since they are named
after the positions of nodes, and the pipelines of the plan call no functions but these and the
helper functions.

## Main results

* `Plan.inOrder_definitions`: the functions of a plan only call those in front of them;
* `Plan.nodup_functions`: they are different;
* `Plan.gives_isWithin_lowerScalar`, `Plan.gives_isWithin_lowerVectorised`: the pipelines.
-/

namespace PlanCompiler

variable {v : Vocabulary}

/-! ## Functions of a plan -/

namespace Groups

/-- The functions of an aggregation at a position. -/
def functionsAt (node : Nat) : List Name := [.groupsHash node, .groupsGrow node, .groupsFind node]

/-- An aggregation defines its three functions exactly if it has groups. -/
theorem functions_definitions (groups : Groups) :
    Definition.functions groups.definitions =
      if groups.isGrouped then functionsAt groups.node else [] := by
  rw [definitions]
  split <;> rfl

/-- The functions of an aggregation hash, grow and find. -/
theorem mem_functionsAt_iff {node : Nat} {name : Name} : name ∈ functionsAt node ↔
    name = .groupsHash node ∨ name = .groupsGrow node ∨ name = .groupsFind node := by
  simp only [functionsAt, List.mem_cons, List.not_mem_nil, or_false]

/-- The functions of one aggregation are distinct. -/
theorem nodup_functionsAt (node : Nat) : (functionsAt node).Nodup := by
  simp [functionsAt]

/-- The functions of aggregations at distinct positions are distinct. -/
theorem nodup_flatMap_functionsAt {positions : List Nat} (distinct : positions.Nodup) :
    (positions.flatMap functionsAt).Nodup := by
  refine List.nodup_flatMap.2 ⟨fun node _ => nodup_functionsAt node, distinct.imp ?_⟩
  intro node node' different name member member'
  rw [mem_functionsAt_iff] at member member'
  obtain rfl | rfl | rfl := member <;> simp [different] at member'

end Groups

namespace PlanTree

/-- The functions of the aggregations of a tree are among those at its positions, in this order. -/
theorem functions_definitions_sublist (tree : PlanTree) :
    (Definition.functions tree.definitions).Sublist
      (tree.positions.flatMap Groups.functionsAt) := by
  induction tree with
  | scan site table columns => exact List.nil_sublist _
  | filter site predicate input ih | project site expressions input ih =>
    exact ih.trans (List.sublist_append_right ..)
  | join site leftKey rightKey left right ihLeft ihRight =>
    rw [definitions, Definition.functions_append, positions, List.flatMap_cons, List.flatMap_append]
    exact (ihLeft.append ihRight).trans (List.sublist_append_right ..)
  | aggregate site groupBy aggregates input ih =>
    rw [definitions, Definition.functions_append, positions, List.flatMap_cons]
    refine .append ?_ ih
    -- an aggregation without groups of its own defines no functions
    cases found : Groups.of site.node input.schema groupBy aggregates with
    | error => exact List.nil_sublist _
    | ok groups =>
      have node := (Groups.gives_of site.node input.schema groupBy aggregates groups found).1
      simp only [Except.toOption, Option.map_some, Option.getD_some, groups.functions_definitions,
        node]
      split
      · exact .refl _
      · exact List.nil_sublist _

/-- Every function that a tree defines is one of an aggregation's. -/
theorem exists_mem_functionsAt {tree : PlanTree} {name : Name}
    (member : name ∈ Definition.functions tree.definitions) :
    ∃ node, name ∈ Groups.functionsAt node := by
  obtain ⟨node, -, found⟩ :=
    List.mem_flatMap.1 (tree.functions_definitions_sublist.subset member)
  exact ⟨node, found⟩

/-- The definitions of a tree are in order. -/
theorem inOrder_definitions (helpers : v.HasHelpers) (tree : PlanTree) :
    Definition.InOrder v tree.definitions := by
  induction tree generalizing v with
  | scan site table columns => trivial
  | filter site predicate input ih | project site expressions input ih => exact ih helpers
  | join site leftKey rightKey left right ihLeft ihRight =>
    exact (ihLeft helpers).append (ihRight (helpers.define _))
  | aggregate site groupBy aggregates input ih =>
    refine .append ?_ (ih (helpers.define _))
    cases Groups.of site.node input.schema groupBy aggregates with
    | error => trivial
    | ok groups => exact groups.inOrder_definitions helpers

end PlanTree

namespace Plan

variable (plan : Plan) (countOnly : Bool)

/-- A plan defines its loaders, the row printer if it prints, and the functions of its aggregations.
-/
theorem functions_definitions :
    Definition.functions (plan.definitions countOnly) =
      Definition.functions plan.tableSections.definitions ++
        (if countOnly then [] else [.printRow]) ++ Definition.functions plan.tree.definitions := by
  rw [definitions, Definition.functions_append, Definition.functions_append]
  cases countOnly <;> rfl

/-- Of some nodes, the scans define their loaders, and the others define nothing. -/
theorem functions_concat_sublist {needs : Node × Nat → Sections}
    (scans : ∀ table columns node,
      needs (.scan table columns, node) = Table.sections node table columns)
    (others : ∀ entry : Node × Nat, (∀ table columns, entry.1 ≠ .scan table columns) →
      needs entry = {})
    (nodes : List Node) (start : Nat) :
    (Definition.functions (Sections.concat ((nodes.zipIdx start).map needs)).definitions).Sublist
      ((List.range' start nodes.length).map Name.loader) := by
  induction nodes generalizing start with
  | nil => exact List.nil_sublist _
  | cons node rest ih =>
    rw [List.zipIdx_cons, List.map_cons, Sections.concat, Sections.definitions_append,
      Definition.functions_append, List.length_cons, List.range'_succ, List.map_cons]
    -- only a scan defines a function, and the number in its name is its position
    cases node with
    | scan table columns =>
      rw [scans]
      exact (ih (start + 1)).cons_cons (Name.loader start)
    | filter | project | join | aggregate =>
      rw [others (_, start) (by simp)]
      exact (ih (start + 1)).cons (Name.loader start)

/-- The loaders are among those at the positions of nodes, in this order. -/
theorem functions_tableSections_sublist :
    (Definition.functions plan.tableSections.definitions).Sublist
      ((List.range plan.nodes.length).map Name.loader) := by
  rw [tableSections, List.range_eq_range']
  refine functions_concat_sublist (fun _ _ _ => rfl) (fun entry differs => ?_) plan.nodes 0
  split
  · exact absurd rfl (differs _ _)
  · rfl

/-- The loader of each scan is defined. -/
theorem mem_loaders {node : Nat} {table : String} {columns : List ScanColumn}
    (found : (.scan table columns, node) ∈ plan.nodes.zipIdx) :
    .loader node ∈ Definition.functions plan.tableSections.definitions := by
  refine List.mem_filterMap.2 ⟨Table.loader node table columns, ?_, rfl⟩
  rw [tableSections, Sections.definitions_concat, List.flatMap_map]
  exact List.mem_flatMap.2 ⟨_, found, List.mem_cons_of_mem _ List.mem_cons_self⟩

variable {plan countOnly} in
/-- The sections of tables define loaders only. -/
theorem exists_eq_loader {name : Name}
    (member : name ∈ Definition.functions plan.tableSections.definitions) :
    ∃ node, name = .loader node := by
  obtain ⟨node, -, rfl⟩ := List.mem_map.1 (plan.functions_tableSections_sublist.subset member)
  exact ⟨node, rfl⟩

variable {plan countOnly} in
/-- The row printer is all that printing defines. -/
theorem eq_printRow {name : Name} (member : name ∈ if countOnly then [] else [Name.printRow]) :
    name = .printRow := by
  cases countOnly with
  | true => cases member
  | false => exact List.mem_singleton.1 member

/-- The functions of a plan are different, and none is a helper function. -/
theorem nodup_functions :
    (Definition.functions (plan.definitions countOnly)).Nodup ∧
      ∀ name ∈ Definition.functions (plan.definitions countOnly),
        name.isFunction = true ∧ ∀ helper, name ≠ .helper helper := by
  rw [functions_definitions]
  refine ⟨List.nodup_append.2 ⟨List.nodup_append.2 ⟨?_, ?_, ?_⟩, ?_, ?_⟩, ?_⟩
  · exact plan.functions_tableSections_sublist.nodup
      (List.nodup_range.map fun node node' => Name.loader.inj)
  · cases countOnly <;> simp
  · intro name loads other prints
    obtain ⟨node, rfl⟩ := exists_eq_loader loads
    rw [eq_printRow prints]
    exact nofun
  · exact plan.tree.functions_definitions_sublist.nodup
      (Groups.nodup_flatMap_functionsAt plan.nodup_positions_tree)
  · -- the name of an aggregation's function says what the function does
    intro name first other groups
    obtain ⟨node, found⟩ := PlanTree.exists_mem_functionsAt groups
    rcases List.mem_append.1 first with loads | prints
    · obtain ⟨node', rfl⟩ := exists_eq_loader loads
      obtain rfl | rfl | rfl := Groups.mem_functionsAt_iff.1 found <;> exact nofun
    · rw [eq_printRow prints]
      obtain rfl | rfl | rfl := Groups.mem_functionsAt_iff.1 found <;> exact nofun
  · intro name member
    rw [List.mem_append, List.mem_append] at member
    rcases member with (loads | prints) | groups
    · obtain ⟨node, rfl⟩ := exists_eq_loader loads
      exact ⟨rfl, nofun⟩
    · rw [eq_printRow prints]
      exact ⟨rfl, nofun⟩
    · obtain ⟨node, found⟩ := PlanTree.exists_mem_functionsAt groups
      obtain rfl | rfl | rfl := Groups.mem_functionsAt_iff.1 found <;> exact ⟨rfl, nofun⟩

/-- The functions of a plan only call those in front of them. -/
theorem inOrder_definitions (helpers : v.HasHelpers) :
    Definition.InOrder v (plan.definitions countOnly) := by
  refine ((Definition.InOrder.of_forall ?_).append ?_).append
    (plan.tree.inOrder_definitions (helpers.define _))
  -- the record of a table comes in front of its loader, and neither calls another loader
  · intro definition member functions
    rw [tableSections, Sections.definitions_concat, List.flatMap_map] at member
    obtain ⟨⟨node, k⟩, -, found⟩ := List.mem_flatMap.1 member
    cases node with
    | scan table columns =>
      obtain rfl | rfl : definition = _ ∨ definition = _ := by
        simpa only [Table.sections, List.mem_cons, List.not_mem_nil, or_false] using found
      · exact Table.isWithin_recordType k columns
      · exact Table.isWithin_loader (helpers.define functions) k table columns
    | filter | project | join | aggregate => cases found
  · cases countOnly with
    | true => trivial
    | false => exact ⟨RowPrinter.isWithin_definition (helpers.define _) _, trivial⟩

/-! ## Pipelines of plans -/

section

variable {plan} {countOnly : Bool}
  (defined : Definition.functions (plan.definitions countOnly) ⊆ v.functions)
include defined

/-- The sections of a plan's tables keep within a vocabulary with the loaders. -/
theorem isWithin_tableSections : plan.tableSections.IsWithin v := by
  rw [functions_definitions, List.append_subset, List.append_subset] at defined
  refine .concat (List.forall_mem_map.2 fun (node, position) member => ?_)
  cases node with
  | scan table columns =>
    exact Table.isWithin_sections (defined.1.1 (plan.mem_loaders member)) table columns
  | filter | project | join | aggregate => exact .empty

/-- The functions of a plan's tree are known where the plan's definitions are. -/
theorem isKnown_tree : plan.tree.IsKnown v := by
  rw [functions_definitions, List.append_subset] at defined
  exact defined.2

/-- The row printer is known where rows are printed. -/
theorem printRow_mem (prints : countOnly = false) : .printRow ∈ v.functions := by
  rw [functions_definitions, List.append_subset, List.append_subset, prints] at defined
  exact defined.1.2 List.mem_cons_self

omit defined in
/-- The row printer's section keeps within a vocabulary with the helpers. -/
theorem isWithin_printer :
    (if countOnly then {} else { definitions := [RowPrinter.definition plan.outputSchema] } :
      Sections).IsWithin v := by
  split <;> exact ⟨.nil, .nil, .nil⟩

variable {checked : Bool} (counts : countOnly = true → v.words .count)
  (checks : checked = true → v.words .fault)
  (divides : checked = true → .helper .divide ∈ v.functions) (helpers : v.HasHelpers)

omit defined in
include checks in
/-- The check behind the nodes keeps within a vocabulary that knows the fault flag. -/
theorem isWithin_check :
    AllOf (Statement.IsWithin v) (if checked then [.line "KILN_CHECK(!kiln_fault);"] else []) := by
  split
  · rename_i holds
    exact AllOf.cons_iff.2 ⟨Statement.isWithin_line.2 (Code.isWithin_text.2
      (Piece.isWithin_text_of_words (rfl : String.ofList _ = "KILN_CHECK(!kiln_fault);")
        (checks holds) (by decide))), .nil⟩
  · exact .nil

include counts checks divides helpers

/-- The pipelines that handle rows. -/
theorem gives_isWithin_lowerScalar :
    Gives (plan.lowerScalar checked countOnly) fun (sections, body) =>
      sections.IsWithin v ∧ AllOf (Statement.IsWithin v) body := by
  refine (PlanTree.gives_isWithin_rows divides helpers (isKnown_tree defined)).bind
    fun pipeline known => .ok ⟨?_, ?_⟩
  · exact ((isWithin_tableSections defined).append isWithin_printer).append known.sections
  · refine known.close (AllOf.append_iff.2 ⟨isWithin_check checks, AllOf.cons_iff.2 ⟨?_, .nil⟩⟩)
    split
    · rename_i holds
      simp (disch := first | decide | exact rfl) [Piece.isWithin_text_of_words _ (counts holds)]
    · rename_i prints
      exact RowPrinter.isWithin_print (printRow_mem defined (Bool.eq_false_iff.2 prints))
        (AllOf.map_iff.2 known.output)

/-- The pipelines that handle batches. -/
theorem gives_isWithin_lowerVectorised {simd : Bool} (has : v.words .vectorSize)
    (directs : simd = true → v.directives) :
    Gives (plan.lowerVectorised checked countOnly simd) fun (sections, body) =>
      sections.IsWithin v ∧ AllOf (Statement.IsWithin v) body := by
  refine (PlanTree.gives_isWithin_batches has divides directs helpers
    (isKnown_tree defined)).bind fun pipeline known => .ok ⟨?_, ?_⟩
  · exact ((isWithin_tableSections defined).append isWithin_printer).append known.sections
  -- the rows are counted or printed, each with the words that only this does
  · refine known.close (AllOf.append_iff.2 ⟨isWithin_check checks, AllOf.cons_iff.2 ⟨?_, .nil⟩⟩)
    split
    · rename_i holds
      simp (disch := first | decide | exact rfl) [Piece.isWithin_text_of_words _ (counts holds),
        known.output.length]
    · rename_i prints
      have row := known.output.row (Name.isWithin_resultRow (v := v))
      have print := RowPrinter.isWithin_print (printRow_mem defined (Bool.eq_false_iff.2 prints))
        (AllOf.map_iff.2 row)
      exact known.output.loop Name.isWithin_resultRow (AllOf.cons_iff.2 ⟨print, .nil⟩)

end

end Plan

end PlanCompiler
