import PlanCompiler.Proofs.Lowering.CallSites.Rows
import PlanCompiler.Proofs.Lowering.Production.Batches

/-!
# Call sites in pipelines of batches

Also where rows are handled in batches, each expression stands once in the program: the condition
of a filter in the loop that writes the selection, and an expression of a projection in the loop
that writes its columns. Arrays, offsets and selections are names, so that nothing that reads them
repeats a division.

## Main definitions

* `Batch.IsQuiet`: the code of a batch does not mention checked division.

## Main results

* `PlanTree.gives_hasSites_batches`: the pipeline of a tree has a checked division for each integer
  division of the tree.
-/

namespace PlanCompiler

open Statement (codesOfAll)

/-- The code of a column does not mention checked division. -/
structure BatchColumn.IsQuiet (column : BatchColumn) : Prop where
  array : column.array.IsQuiet
  offset : ∀ name ∈ column.offset, name.IsQuiet

/-- The value of a quiet column at a quiet row is quiet. -/
theorem BatchColumn.IsQuiet.atRow {column : BatchColumn} (quiet : column.IsQuiet) {row : Code}
    (rowQuiet : row.IsQuiet) : (column.atRow row).code.IsQuiet := by
  obtain ⟨array, offset, type⟩ := column
  obtain ⟨arrayQuiet, offsetQuiet⟩ := quiet
  cases offset with
  | none => simpa [BatchColumn.atRow] using ⟨arrayQuiet, rowQuiet⟩
  | some name =>
    simpa (disch := first | decide | exact rfl) [BatchColumn.atRow, rowQuiet] using
      ⟨arrayQuiet, offsetQuiet name rfl⟩

/-- The code of a batch does not mention checked division. -/
structure Batch.IsQuiet (batch : Batch) : Prop where
  columns : AllOf BatchColumn.IsQuiet batch.columns
  length : batch.length.IsQuiet
  selection : ∀ name ∈ batch.selection, name.IsQuiet

namespace Batch

variable {batch : Batch} {index : Name}

section

variable (quiet : batch.IsQuiet) (indexQuiet : index.IsQuiet)
include quiet indexQuiet

/-- The position of a row in a quiet batch is quiet. -/
theorem IsQuiet.position : (batch.position index).IsQuiet := by
  obtain ⟨columns, length, selection⟩ := batch
  cases selection with
  | none => simpa [Batch.position] using indexQuiet
  | some selection => simpa [Batch.position, indexQuiet] using quiet.selection selection rfl

/-- The values of a row in a quiet batch are quiet. -/
theorem IsQuiet.row : AllOf Value.IsQuiet (batch.row index) :=
  AllOf.map_iff.2 fun column member =>
    (quiet.columns column member).atRow (quiet.position indexQuiet)

/-- A loop over a quiet batch with a quiet body is quiet. -/
theorem IsQuiet.loop {body : List Statement} (bodyQuiet : AllOf Statement.IsQuiet body) :
    (batch.loop index body).IsQuiet :=
  Statement.isQuiet_block.2 ⟨Head.isQuiet_upTo.2 ⟨indexQuiet, quiet.length⟩, bodyQuiet⟩

/-- A loop repeats its statements, but not their code. -/
theorem IsQuiet.haveSites_loop {body : List Statement} {n : Nat}
    (counted : Code.HaveSites (codesOfAll body) n) :
    Code.HaveSites (batch.loop index body).codes n :=
  .block (Head.isQuiet_upTo.2 ⟨indexQuiet, quiet.length⟩) counted

end

/-- Slices of quiet arrays are quiet, and so is the batch they hand on. -/
theorem isQuiet_slices (base name : Name) (baseQuiet : base.IsQuiet) (nameQuiet : name.IsQuiet)
    {total : Code} (totalQuiet : total.IsQuiet) {arrays : List (Code × DataType)}
    (arraysQuiet : ∀ array ∈ arrays, array.1.IsQuiet) :
    AllOf Step.IsQuiet (slices base name total arrays).1 ∧
      (slices base name total arrays).2.IsQuiet := by
  refine ⟨?_, AllOf.map_iff.2 fun array member => ⟨arraysQuiet array member, ?_⟩,
    Code.isMadeOf_name.2 nameQuiet, nofun⟩
  · simp (disch := first | decide | exact rfl) [slices, declareLength, baseQuiet, nameQuiet,
      totalQuiet]
  · rintro _ ⟨⟩
    exact baseQuiet

end Batch

namespace Join

variable (join : Join) (schema : Schema)

/-- The names of a join's outputs are quiet. -/
theorem isQuiet_of_mem_outputs {output : Name × DataType} (member : output ∈ join.outputs schema) :
    output.1.IsQuiet := by
  obtain ⟨⟨type, k⟩, -, rfl⟩ := List.mem_map.1 member
  exact IsIdentifier.append (by decide) (isIdentifier_toString k)

/-- The sections for a join's outputs are quiet. -/
theorem isQuiet_outputSections : (join.outputSections schema).IsQuiet := by
  have number {part : String} (word : IsIdentifier part) :
      (Sections.plain "size_t" (join.named part) "0").IsQuiet := by
    refine .plain ?_ (join.isQuiet_named.2 word) ?_ <;>
      simp (disch := first | decide | exact rfl)
  refine ((number (by decide)).append (number (by decide))).append (.concat
    (List.forall_mem_map.2 fun output member => ?_))
  exact .buffer output.2.isQuiet_representation (join.isQuiet_of_mem_outputs schema member)

/-- Collecting a quiet row in a join's outputs is quiet. -/
theorem isQuiet_collect {row : List Value} (quiet : AllOf Value.IsQuiet row) :
    AllOf Statement.IsQuiet (join.collect schema row) := by
  have output : ∀ name type, (name, type) ∈ join.outputs schema → name.IsQuiet :=
    fun name type => join.isQuiet_of_mem_outputs schema
  have stored : ∀ name type value, ((name, type), value) ∈ (join.outputs schema).zip row →
      name.IsQuiet ∧ value.code.IsQuiet := fun name type value member =>
    ⟨output name type (List.of_mem_zip member).1, quiet value (List.of_mem_zip member).2⟩
  simpa (disch := first | decide | exact rfl) [collect] using And.intro output stored

/-- Storing a quiet batch on the build side is quiet. -/
theorem isQuiet_storeBatch {batch : Batch} (quiet : batch.IsQuiet) :
    AllOf Statement.IsQuiet (join.storeBatch batch) := by
  have index : (join.named "i").IsQuiet := by simp (disch := first | decide | exact rfl)
  exact AllOf.cons_iff.2 ⟨quiet.loop index (join.isQuiet_store (quiet.row index)), .nil⟩

/-- The slices of a join's outputs are quiet. -/
theorem isQuiet_slices :
    AllOf Step.IsQuiet (join.slices schema).1 ∧ (join.slices schema).2.IsQuiet := by
  have word {part : String} (isWord : IsIdentifier part) : (join.named part).IsQuiet := isWord
  have count : ((join.named "on" : Name) : Code).IsQuiet := Code.isMadeOf_name.2 (word (by decide))
  exact Batch.isQuiet_slices _ _ (word (by decide)) (word (by decide)) count
    (List.forall_mem_map.2 fun output member =>
      Code.isMadeOf_name.2 (join.isQuiet_of_mem_outputs schema member))

/-- A batch is paired in a loop around the search for the rows that agree with one of its rows. -/
theorem isQuiet_pairBatch {batch : Batch} (quiet : batch.IsQuiet) (checked : Bool) {key : Value}
    (keyQuiet : key.IsQuiet) : (join.pairBatch checked schema batch key).IsQuiet := by
  have index : (join.named "i").IsQuiet := show IsIdentifier "i" by decide
  exact quiet.loop index (Context.isQuiet_fill (join.isQuiet_probe checked keyQuiet)
    (join.isQuiet_collect schema (AllOf.append_iff.2 ⟨join.isQuiet_found, quiet.row index⟩)))

/-- All that a join does with the pairs of rows is quiet. -/
theorem gives_isQuiet_probeBatch {batch : Batch} (quiet : batch.IsQuiet) (checked : Bool)
    (rightKey : UInt32) :
    Gives (join.probeBatch checked schema rightKey batch) fun next =>
      AllOf Step.IsQuiet next.context ∧ next.output.IsQuiet := by
  have index : (join.named "i").IsQuiet := show IsIdentifier "i" by decide
  refine (gives_keyOf (quiet.row index) rightKey).bind fun key keyQuiet => .ok ?_
  have empties : (Statement.line (join.named "on" ++ " = 0;")).IsQuiet := by
    simp (disch := first | decide | exact rfl)
  obtain ⟨steps, slice⟩ := join.isQuiet_slices schema
  exact ⟨AllOf.cons_iff.2 ⟨empties, AllOf.cons_iff.2
    ⟨join.isQuiet_pairBatch schema quiet checked keyQuiet, steps⟩⟩, slice⟩

end Join

/-- The head of a loop that may have a directive in front of it. -/
theorem Head.isQuiet_upTo_withDirective {c : Prop} [Decidable c] {directive : Code} {index : Name}
    {length : Code} (directiveQuiet : directive.IsQuiet) (indexQuiet : index.IsQuiet)
    (lengthQuiet : length.IsQuiet) :
    ((Head.upTo index length).withDirective (if c then some directive else none)).IsQuiet := by
  have head := Head.isQuiet_upTo.2 ⟨indexQuiet, lengthQuiet⟩
  refine Head.isQuiet_withDirective head fun code given => ?_
  obtain ⟨-, same⟩ := Option.mem_ite_none_right.1 given
  exact Option.some_inj.1 same ▸ directiveQuiet

/-- Adding a quiet batch to a quiet accumulator is quiet. -/
theorem BatchPipeline.gives_isQuiet_accumulate (simd : Bool) {batch : Batch} (quiet : batch.IsQuiet)
    (aggregate : Aggregate) (type : DataType) {accumulator index : Name}
    (accumulatorQuiet : accumulator.IsQuiet) (indexQuiet : index.IsQuiet) :
    Gives (accumulate batch simd aggregate type accumulator index) Statement.IsQuiet := by
  have update (aggregate : Aggregate) := Groups.gives_isQuiet_accumulate
    (quiet.row indexQuiet) aggregate (Code.isMadeOf_name.2 accumulatorQuiet)
  cases aggregate with
  | count =>
    exact .ok (by simp (disch := first | decide | exact rfl) [accumulatorQuiet, quiet.length])
  | sum | min | max =>
    refine (update _).bind fun update updateQuiet => .ok ?_
    refine Statement.isQuiet_block.2 ⟨Head.isQuiet_upTo_withDirective ?_ indexQuiet quiet.length,
      updateQuiet⟩
    simp (disch := first | decide | exact rfl) [accumulatorQuiet]

namespace Groups

variable (groups : Groups)

/-- Taking a quiet batch into the groups is quiet. -/
theorem gives_isQuiet_gatherBatch {batch : Batch} (quiet : batch.IsQuiet) (checked : Bool)
    (groupBy : List UInt32) :
    Gives (groups.gatherBatch checked groupBy batch) (AllOf Statement.IsQuiet) := by
  have word {part : String} (isWord : IsIdentifier part) : (groups.named part).IsQuiet := isWord
  have index := word (show IsIdentifier "i" by decide)
  have group := word (show IsIdentifier "g" by decide)
  have ids := word (show IsIdentifier "gid" by decide)
  have row := quiet.row index
  -- one loop finds the groups of the rows, and each aggregate has a loop of its own
  refine (gives_isQuiet_find row group).bind fun found foundQuiet => Gives.bind
    (.mapM (S := Statement.IsQuiet) fun entry _ => ?_) fun updates updatesQuiet => .ok ?_
  · have slot : (groups.slot entry.2 (groups.named "g")).IsQuiet :=
      groups.isQuiet_slot.2 (Code.isMadeOf_name.2 group)
    refine (gives_isQuiet_accumulate row entry.1.1 slot).bind fun update updateQuiet => .ok ?_
    refine quiet.loop index (AllOf.cons_iff.2 ⟨?_, AllOf.append_iff.2
      ⟨groups.isQuiet_checkGroup checked group, updateQuiet⟩⟩)
    simp (disch := first | decide | exact rfl) [index, group, ids]
  · refine AllOf.cons_iff.2 ⟨quiet.loop index (AllOf.append_iff.2 ⟨foundQuiet, ?_⟩), updatesQuiet⟩
    simp (disch := first | decide | exact rfl) [index, group, ids]

/-- The slices of the groups are quiet. -/
theorem isQuiet_slices : AllOf Step.IsQuiet groups.slices.1 ∧ groups.slices.2.IsQuiet := by
  refine Batch.isQuiet_slices (groups.named "base") (groups.named "n")
    (groups.isQuiet_named.2 (by decide)) (groups.isQuiet_named.2 (by decide)) groups.isQuiet_count
    (List.forall_mem_append.2 ⟨List.forall_mem_map.2 fun _ _ => ?_,
      List.forall_mem_map.2 fun _ _ => ?_⟩)
  all_goals simp (disch := simp) [Piece.isQuiet_of_notMem_k]

/-- Taking a quiet batch into the accumulators without groups is quiet. -/
theorem gives_isQuiet_summariseBatch {batch : Batch} (quiet : batch.IsQuiet) (simd : Bool) :
    Gives (groups.summariseBatch simd batch) (AllOf Statement.IsQuiet) := by
  refine Gives.bind (.mapM (S := Statement.IsQuiet) fun entry _ => ?_) fun updates updatesQuiet =>
    .ok (AllOf.append_iff.2 ⟨.ite ?_ .nil, updatesQuiet⟩)
  · exact BatchPipeline.gives_isQuiet_accumulate simd quiet entry.1.1 entry.1.2
      (groups.isQuiet_accumulator entry.2) (show IsIdentifier "i" by decide)
  · simp (disch := first | decide | exact rfl) [quiet.length]

/-- The arrays for the totals and their values are quiet. -/
theorem isQuiet_of_mem_totalArrays {array : Name × Value} (member : array ∈ groups.totalArrays) :
    array.1.IsQuiet ∧ array.2.code.IsQuiet := by
  obtain ⟨⟨value, j⟩, found, rfl⟩ := List.mem_map.1 member
  exact ⟨IsIdentifier.append (by decide) (isIdentifier_toString j),
    groups.isQuiet_totals.of_mem_zipIdx found⟩

/-- Storing the totals is quiet. -/
theorem isQuiet_storeTotals : AllOf Statement.IsQuiet groups.storeTotals := by
  refine AllOf.flatMap_iff.2 fun array member => ?_
  simp (disch := first | decide | exact rfl) [groups.isQuiet_of_mem_totalArrays member]

/-- The batch of the totals is quiet. -/
theorem isQuiet_totalBatch : groups.totalBatch.IsQuiet where
  columns := AllOf.map_iff.2 fun array member =>
    ⟨Code.isMadeOf_name.2 (groups.isQuiet_of_mem_totalArrays member).1, by simp⟩
  length := by simp (disch := first | decide | exact rfl) [totalBatch]
  selection := by simp [totalBatch]

end Groups

section

variable (checked simd : Bool) (site : Site)

namespace BatchPipeline

/-- The number of checked divisions in a pipeline of batches. -/
abbrev HasSites (pipeline : BatchPipeline) (n : Nat) : Prop :=
  Pipeline.HasSites Batch.IsQuiet pipeline n

variable {input left right : BatchPipeline} {groups : Groups} {m n : Nat}

/-- A scan in batches has no checked division. -/
theorem hasSites_scan (columns : List ScanColumn) : (scan site columns).HasSites 0 := by
  have rows : (Code.member (Table.record site.node) "rows").IsQuiet := by
    simp (disch := first | decide | exact rfl)
  have arrays : ∀ array ∈ columns.zipIdx.map (fun entry =>
      (Code.member (Table.record site.node) s!"c{entry.2}", entry.1.type)), array.1.IsQuiet :=
    List.forall_mem_map.2 fun _ _ => by simp (disch := simp) [Piece.isQuiet_of_notMem_k]
  have word (part : String) (isWord : IsIdentifier part) :
      (Name.ofNode .table site.node (some part)).IsQuiet := isWord
  obtain ⟨steps, batch⟩ := Batch.isQuiet_slices _ _ (word "base" (by decide))
    (word "n" (by decide)) rows arrays
  exact ⟨.empty, Context.haveSites_of_isQuiet steps, batch⟩

/-- Whether a row is kept is decided once, with branches or without. -/
theorem haveSites_keep {selection count : Name} (selectionQuiet : selection.IsQuiet)
    (countQuiet : count.IsQuiet) {position condition : Code} (positionQuiet : position.IsQuiet)
    (whole : condition.IsWhole) :
    Code.HaveSites (codesOfAll (if simd then
        [.line (.element selection count ++ " = " ++ position ++ ";"),
          .line (count ++ " += (size_t)" ++ condition ++ ";")]
      else
        [.control ("if (" ++ condition ++ ")")
          (.element selection (count ++ "++") ++ " = " ++ position ++ ";")])) condition.sites := by
  cases simd with
  | true =>
    -- the condition is added to the count, so it stands in the second line
    have front : (count ++ " += (size_t)" : Code).IsQuiet := by
      simp (disch := first | decide | exact rfl) [countQuiet]
    have added : (count ++ " += (size_t)" ++ condition ++ ";" : Code).IsWhole := by
      simpa (disch := first | decide | exact rfl) [whole] using front.isWhole
    refine @Code.HaveSites.append_left [_] [_] _ (AllOf.cons_iff.2 ⟨?_, .nil⟩)
      (.cons_of_isQuiet added ?_ .nil)
    · simp (disch := first | decide | exact rfl) [positionQuiet, countQuiet, selectionQuiet]
    · simp (disch := first | decide | exact rfl) [Code.sites_append_text,
        Code.sites_append_text_append, front.sites_eq]
  | false =>
    refine .cons_of_isQuiet ?_ ?_ ?_
    · simp (disch := first | decide | exact rfl) [whole]
    · simp (disch := first | decide | exact rfl) [Code.sites_append_text, Code.sites_text_append]
    · simp (disch := first | decide | exact rfl) [positionQuiet, countQuiet, selectionQuiet]

/-- A filter adds the checked divisions of its predicate to those of its input. -/
theorem gives_hasSites_filter (counted : input.HasSites n) {predicate : Expr} {type : DataType}
    (typed : predicate.infer input.types = .ok type) :
    Gives (input.filter checked simd site predicate) fun pipeline =>
      pipeline.HasSites (n + predicate.checkedDivisions checked input.types) := by
  have word {part : String} (isWord : IsIdentifier part) :
      (Name.ofNode .filter site.node (some part)).IsQuiet := isWord
  have index := word (show IsIdentifier "i" by decide)
  have count := word (show IsIdentifier "n" by decide)
  have selection := word (show IsIdentifier "sel" by decide)
  -- the condition reads the columns in one row of the batch
  rw [types, ← Batch.row_types _ (.ofNode .filter site.node (some "i"))] at typed ⊢
  refine (Expr.gives_hasSites_lower checked (counted.output.row index) typed).bind
    fun condition conditionCounted => .ok ?_
  have position : ("(uint32_t)" ++ input.output.position (.ofNode .filter site.node (some "i")) :
      Code).IsQuiet := by
    simp (disch := first | decide | exact rfl) [counted.output.position index]
  have kept := haveSites_keep simd selection count position conditionCounted.whole
  have loop := counted.output.haveSites_loop index kept
  have declared : AllOf Code.IsQuiet (Step.codes (.run (.declare "size_t "
      (.ofNode .filter site.node (some "n")) " = 0;"))) := by
    simp (disch := first | decide | exact rfl) [Step.codes, Statement.codes]
  have entered : AllOf Code.IsQuiet (Context.codes [.enter (.control ("if (" ++
      Name.ofNode .filter site.node (some "n") ++ " != 0)"))]) :=
    Context.allOf_codes.2 (by simp (disch := first | decide | exact rfl))
  have steps := Code.HaveSites.append_left declared (loop.append_right entered)
  rw [conditionCounted.sites] at steps
  refine counted.extend (.vector (by simp (disch := first | decide | exact rfl)) selection) ?_
    { columns := counted.output.columns
      length := Code.isMadeOf_name.2 count
      selection := by rintro _ ⟨⟩; exact selection }
  exact steps

/-- Columns are assigned the code of values, each of which stands there once. -/
theorem haveSites_assign {columns : List BatchColumn} {row : List Value} {index : Name}
    (columnsQuiet : AllOf BatchColumn.IsQuiet columns) (indexQuiet : index.IsQuiet)
    (whole : AllOf Code.IsWhole (row.map Value.code)) (lengths : columns.length = row.length) :
    Code.HaveSites (codesOfAll ((columns.zip row).map fun (column, value) =>
        .line ((column.atRow index).code ++ " = " ++ value.code ++ ";")))
      ((row.map Value.code).map Code.sites).sum := by
  induction columns generalizing row with
  | nil =>
    obtain rfl := List.length_eq_zero_iff.1 lengths.symm
    exact .nil
  | cons column columns ih =>
    cases row with
    | nil => nomatch lengths
    | cons value row =>
      obtain ⟨columnQuiet, columnsQuiet⟩ := AllOf.cons_iff.1 columnsQuiet
      obtain ⟨valueWhole, whole⟩ := AllOf.cons_iff.1 whole
      have front : ((column.atRow index).code ++ " = " : Code).IsQuiet := by
        simpa (disch := first | decide | exact rfl) using
          columnQuiet.atRow (Code.isMadeOf_name.2 indexQuiet)
      have assigned : ((column.atRow index).code ++ " = " ++ value.code ++ ";" : Code).IsWhole := by
        simpa (disch := first | decide | exact rfl) [valueWhole] using front.isWhole
      -- no division is in front of the value, so its sites are the sites of the line
      have others := ih columnsQuiet whole (Nat.succ.inj lengths)
      have all := Code.HaveSites.cons assigned others
      simp (disch := first | decide | exact rfl) only [Code.sites_append_text,
        Code.sites_append_text_append, front.sites_eq, Nat.zero_add] at all
      exact all

/-- The vectors of a projection are named after its columns. -/
theorem isQuiet_of_mem_projectionArrays {k : Nat} {types : Schema} {array : Name × DataType}
    (member : array ∈ projectionArrays k types) : array.1.IsQuiet := by
  obtain ⟨⟨type, j⟩, -, rfl⟩ := List.mem_map.1 member
  exact IsIdentifier.append (by decide) (isIdentifier_toString j)

/-- The arrays of a projection are quiet. -/
theorem isQuiet_projectionSections (k : Nat) (types : Schema) :
    (projectionSections k types).IsQuiet :=
  .concat (List.forall_mem_map.2 fun array member =>
    .vector array.2.isQuiet_representation (isQuiet_of_mem_projectionArrays member))

/-- A projection adds the checked divisions of its expressions to those of its input. -/
theorem gives_hasSites_project (counted : input.HasSites n) {expressions : List Expr}
    {schema : Schema}
    (typed : List.Forall₂ (fun e type => e.infer input.types = .ok type) expressions schema) :
    Gives (input.project checked simd site input.types expressions) fun pipeline =>
      pipeline.HasSites (n + if checked then Expr.integerDivisionsOfAll input.types expressions
        else 0) := by
  have inferred : (expressions.mapM fun e => (e.infer input.types).mapError
      fun error => LoweringError.illTyped error.message) = .ok schema :=
    mapM_eq_ok_iff.2 (typed.imp fun _ _ typed => mapError_eq_ok_iff.2 typed)
  have index : (Name.ofNode .projection site.node (some "i")).IsQuiet :=
    show IsIdentifier "i" by decide
  -- the vectors have the types that are inferred here, once more
  rw [project, inferred]
  rw [types, ← Batch.row_types _ (.ofNode .projection site.node (some "i"))] at typed ⊢
  have lowered := Expr.gives_sum_sites_lowerEach checked (counted.output.row index) fun e member =>
    (exists_of_mem_of_forall₂ typed member).imp fun _ found => found.2
  refine ((Expr.yields_lowerEach checked typed).and lowered).gives.bind fun row known => .ok ?_
  obtain ⟨rowTypes, whole, sites⟩ := known
  -- there is a vector for each value, so that none is left out where they are paired
  have lengths : schema.length = row.length := by rw [← rowTypes, List.length_map]
  have columns : AllOf BatchColumn.IsQuiet ((projectionArrays site.node schema).map fun array =>
      { array := array.1, offset := none, type := array.2 }) :=
    AllOf.map_iff.2 fun array member =>
      ⟨Code.isMadeOf_name.2 (isQuiet_of_mem_projectionArrays member), by simp⟩
  have assigned := haveSites_assign columns index whole (by simpa [projectionArrays] using lengths)
  rw [sites] at assigned
  refine counted.extend (isQuiet_projectionSections site.node schema) ?_
    { columns, length := counted.output.length, selection := by simp }
  have directive : ("#pragma omp simd" : Code).IsQuiet := by
    simp (disch := first | decide | exact rfl)
  exact (Code.HaveSites.block (Head.isQuiet_upTo_withDirective directive index
    counted.output.length) assigned).append_right .nil

/-- A join has the checked divisions of both its inputs. -/
theorem gives_hasSites_join (leftCounted : left.HasSites m) (rightCounted : right.HasSites n)
    (join : Join) (schema : Schema) (rightKey : UInt32) :
    Gives (left.join right checked join schema rightKey) fun pipeline =>
      pipeline.HasSites (m + n) := by
  refine (join.gives_isQuiet_probeBatch schema rightCounted.output checked rightKey).bind
    fun probed probedQuiet => .ok ?_
  have probe := Context.haveSites_of_isQuiet probedQuiet.1
  exact leftCounted.join join.isQuiet_sections (join.isQuiet_storeBatch leftCounted.output)
    join.isQuiet_buildIndex
    (rightCounted.extend (join.isQuiet_outputSections schema) probe probedQuiet.2)

/-- An aggregation with groups has the checked divisions of its input. -/
theorem gives_hasSites_group (counted : input.HasSites n) (groupBy : List UInt32) :
    Gives (input.group checked groups groupBy) fun pipeline => pipeline.HasSites n := by
  refine (groups.gives_isQuiet_gatherBatch counted.output checked groupBy).bind
    fun taken takenQuiet => .ok ?_
  have ids : (Sections.vector "size_t" (groups.named "gid")).IsQuiet := by
    refine .vector ?_ ?_ <;> simp (disch := first | decide | exact rfl)
  obtain ⟨steps, slice⟩ := groups.isQuiet_slices
  exact counted.gather (groups.isQuiet_sections.append ids) takenQuiet steps slice

/-- An aggregation without groups has the checked divisions of its input. -/
theorem gives_hasSites_summarise (counted : input.HasSites n) :
    Gives (input.summarise simd groups) fun pipeline => pipeline.HasSites n := by
  refine (groups.gives_isQuiet_summariseBatch counted.output simd).bind
    fun taken takenQuiet => .ok ?_
  have single : AllOf Step.IsQuiet (.enter .bare :: Context.runAll groups.storeTotals) :=
    AllOf.cons_iff.2 ⟨Step.isQuiet_enter.2 Head.isQuiet_bare,
      Context.allOf_runAll.2 groups.isQuiet_storeTotals⟩
  exact counted.gather groups.isQuiet_sections takenQuiet single groups.isQuiet_totalBatch

end BatchPipeline

/-- The pipeline of a tree has a checked division for each integer division of the tree. -/
theorem PlanTree.gives_hasSites_batches {tree : PlanTree} (typed : tree.WellTyped) :
    Gives (tree.batches checked simd) fun pipeline =>
      pipeline.HasSites (tree.checkedDivisions checked) := by
  induction tree with
  | scan site table columns =>
    rw [checkedDivisions, integerDivisions, ite_self]
    exact .ok (BatchPipeline.hasSites_scan site columns)
  | filter site predicate input ih =>
    obtain ⟨inputTyped, condition, -⟩ := typed
    refine ((yields_batches checked simd inputTyped).and (ih inputTyped)).gives.bind
      fun pipeline known => ?_
    obtain ⟨types, counted⟩ := known
    -- which divisions are checked depends on the types of the columns that are at hand
    rw [← types] at condition
    rw [checkedDivisions_filter, ← types]
    exact BatchPipeline.gives_hasSites_filter checked simd site counted condition
  | project site expressions input ih =>
    obtain ⟨inputTyped, expressionsTyped⟩ := typed
    refine ((yields_batches checked simd inputTyped).and (ih inputTyped)).gives.bind
      fun pipeline known => ?_
    obtain ⟨types, counted⟩ := known
    rw [← types] at expressionsTyped
    rw [checkedDivisions_project, ← types]
    exact BatchPipeline.gives_hasSites_project checked simd site counted expressionsTyped
  | join site leftKey rightKey left right ihLeft ihRight =>
    rw [checkedDivisions_join]
    exact .of_bind fun join => (ihLeft typed.1).bind fun _ leftCounted =>
      (ihRight typed.2.1).bind fun _ rightCounted =>
        BatchPipeline.gives_hasSites_join checked leftCounted rightCounted join site.schema
          rightKey
  | aggregate site groupBy aggregates input ih =>
    refine .of_bind fun groups => (ih typed.1).bind fun pipeline counted => ?_
    split
    · exact BatchPipeline.gives_hasSites_group checked counted groupBy
    · exact BatchPipeline.gives_hasSites_summarise simd counted

end

end PlanCompiler
