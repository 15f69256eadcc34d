import PlanCompiler.Proofs.Lowering.Production.Batches
import PlanCompiler.Proofs.Lowering.Vocabulary.Rows

/-!
# Pipelines of batches within a vocabulary

Where rows are handled in batches, the number of rows in a batch is mentioned as well, and there may
be directives in front of loops.

## Main definitions

* `Batch.IsWithin`: the code of a batch keeps within a vocabulary.

## Main results

* `Head.isWithin_upTo_withDirective`: a loop with a directive in front of it;
* `PlanTree.gives_isWithin_batches`: the pipeline of a tree.
-/

namespace PlanCompiler

open Lexeme (scan after applied)

variable {v : Vocabulary}

/-! ## Directives -/

/-- The directive for vector instructions is one. -/
theorem Code.isDirective_simd : ("#pragma omp simd" : Code).IsDirective v := by
  have chars : ("#pragma omp simd" : Code).chars =
      ['#', 'p', 'r', 'a', 'g', 'm', 'a', ' ', 'o', 'm', 'p', ' ', 's', 'i', 'm', 'd'] :=
    (chars_text _).trans (toList_of_spelled rfl)
  have silent : applied (scan .outside ("#pragma omp simd" : Code).chars) = [] := by
    rw [chars]
    decide
  refine ⟨⟨?_, ?_, ?_, fun word => ?_⟩, ?_, silent⟩
  · rw [chars]
    decide
  · rw [chars]
    decide
  · rw [silent]
    exact List.forall_mem_nil _
  · rw [chars]
    intro member
    cases word <;> exact absurd member (by decide)
  · rw [chars]
    decide

/-- Sums that may be reordered name their accumulator. -/
theorem Code.isDirective_reduction {accumulator : Name} (within : accumulator.IsWithin v) :
    ("#pragma omp simd reduction(+:" ++ accumulator ++ ")" : Code).IsDirective v := by
  have spelled : String.ofList _ = "#pragma omp simd reduction(+:" := rfl
  have word := within.isIdentifier
  have whole : ("#pragma omp simd reduction(+:" ++ accumulator ++ ")" : Code).IsWhole := by
    simp (disch := first | decide | exact rfl) [Piece.isWhole_name word]
  have name : (accumulator : Code).lexemesByPiece = [.word accumulator.text.toList] :=
    (List.flatMap_singleton _ _).trans (Piece.lexemes_name word)
  have scanned :
      scan .outside ("#pragma omp simd reduction(+:" ++ accumulator ++ ")" : Code).chars =
      [.sign '#', .word Text.pragmaWord, .word ['o', 'm', 'p'], .word ['s', 'i', 'm', 'd'],
        .word ['r', 'e', 'd', 'u', 'c', 't', 'i', 'o', 'n'], .sign '(', .sign '+', .sign ':',
        .word accumulator.text.toList, .sign ')'] := by
    rw [scan_chars whole, lexemesByPiece_append, lexemesByPiece_append, lexemesByPiece_text spelled,
      name, lexemesByPiece_text (rfl : String.ofList _ = ")")]
    rfl
  have silent : applied (scan .outside ("#pragma omp simd reduction(+:" ++ accumulator ++
      ")" : Code).chars) = [] := by
    rw [scanned]
    rfl
  -- of all words of the line, only the accumulator depends on the plan
  refine ⟨⟨?_, after_chars whole, ?_, fun conditional member => ?_⟩, ?_, silent⟩
  · have noNewline : '\n' ∉ accumulator.text.toList := fun member =>
      absurd (word _ member) (by decide)
    rw [chars_append, chars_append, chars_text, chars_text, chars_name, toList_of_spelled spelled]
    simp [noNewline]
  · rw [silent]
    exact List.forall_mem_nil _
  · rw [scanned] at member
    by_cases same : accumulator.text.toList = conditional.chars
    · exact within.allows same
    · have other : conditional.chars ≠ accumulator.text.toList := Ne.symm same
      cases conditional <;> simp [ConditionalWord.chars, Text.pragmaWord] at member other
      all_goals exact absurd member other
  · rw [Text.isDirective, scanned]
    rfl

/-- The head of a loop that may have a directive in front of it. -/
theorem Head.isWithin_upTo_withDirective {c : Prop} [Decidable c] (allowed : c → v.directives)
    {directive : Code} {index : Name} {length : Code} (isDirective : directive.IsDirective v)
    (indexWithin : index.IsWithin v) (lengthWithin : length.IsWithin v) :
    ((Head.upTo index length).withDirective (if c then some directive else none)).IsWithin v := by
  have head := Head.isWithin_upTo.2 ⟨indexWithin, lengthWithin⟩
  refine Head.isWithin_loop.2 ⟨fun code given => ?_, (Head.isWithin_loop.1 head).2⟩
  obtain ⟨holds, same⟩ := Option.mem_ite_none_right.1 given
  exact ⟨allowed holds, Option.some_inj.1 same ▸ isDirective⟩

/-! ## Batches -/

/-- The code of a column keeps within a vocabulary. -/
structure BatchColumn.IsWithin (v : Vocabulary) (column : BatchColumn) : Prop where
  array : column.array.IsWithin v
  offset : ∀ name ∈ column.offset, name.IsWithin v

/-- The value of a column at a row keeps within the vocabulary of both. -/
theorem BatchColumn.IsWithin.atRow {column : BatchColumn} (within : column.IsWithin v) {row : Code}
    (rowWithin : row.IsWithin v) : (column.atRow row).code.IsWithin v := by
  obtain ⟨array, offset, type⟩ := column
  obtain ⟨arrayWithin, offsetWithin⟩ := within
  cases offset with
  | none => simpa [BatchColumn.atRow] using ⟨arrayWithin, rowWithin⟩
  | some name =>
    simpa (disch := first | decide | exact rfl) [BatchColumn.atRow, rowWithin] using
      ⟨arrayWithin, offsetWithin name rfl⟩

/-- The code of a batch keeps within a vocabulary. -/
structure Batch.IsWithin (v : Vocabulary) (batch : Batch) : Prop where
  columns : AllOf (BatchColumn.IsWithin v) batch.columns
  length : batch.length.IsWithin v
  selection : ∀ name ∈ batch.selection, name.IsWithin v

namespace Batch

variable {batch : Batch} {index : Name}

section

variable (within : batch.IsWithin v) (indexWithin : index.IsWithin v)
include within indexWithin

/-- The position of a row in its batch keeps within the vocabulary. -/
theorem IsWithin.position : (batch.position index).IsWithin v := by
  obtain ⟨columns, length, selection⟩ := batch
  cases selection with
  | none => simpa [Batch.position] using indexWithin
  | some selection => simpa [Batch.position, indexWithin] using within.selection selection rfl

/-- The values of a row keep within the vocabulary of the batch. -/
theorem IsWithin.row : AllOf (Value.IsWithin v) (batch.row index) :=
  AllOf.map_iff.2 fun column member =>
    (within.columns column member).atRow (within.position indexWithin)

/-- A loop over a batch keeps within the vocabulary of the batch and of its body. -/
theorem IsWithin.loop {body : List Statement} (bodyWithin : AllOf (Statement.IsWithin v) body) :
    (batch.loop index body).IsWithin v :=
  Statement.isWithin_block.2 ⟨Head.isWithin_upTo.2 ⟨indexWithin, within.length⟩, bodyWithin⟩

end

section

variable (has : v.words .vectorSize)
include has

/-- Slices of arrays within a vocabulary keep within it, and so does the batch they hand on. -/
theorem isWithin_slices (base name : Name) (baseWithin : base.IsWithin v)
    (nameWithin : name.IsWithin v) {total : Code} (totalWithin : total.IsWithin v)
    {arrays : List (Code × DataType)} (arraysWithin : ∀ array ∈ arrays, array.1.IsWithin v) :
    AllOf (Step.IsWithin v) (slices base name total arrays).1 ∧
      (slices base name total arrays).2.IsWithin v := by
  refine ⟨?_, AllOf.map_iff.2 fun array member => ⟨arraysWithin array member, ?_⟩,
    Code.isWithin_name.2 nameWithin, nofun⟩
  · simp (disch := first | decide | exact rfl) [slices, declareLength, baseWithin, nameWithin,
      totalWithin, Head.isWithin_batches has, Piece.isWithin_text_of_words _ has]
  · rintro _ ⟨⟩
    exact baseWithin

end

end Batch

namespace Join

variable (join : Join) (schema : Schema)

/-- The names of a join's outputs keep within any vocabulary. -/
theorem isWithin_of_mem_outputs {output : Name × DataType} (member : output ∈ join.outputs schema) :
    output.1.IsWithin v := by
  obtain ⟨⟨type, k⟩, -, rfl⟩ := List.mem_map.1 member
  exact IsIdentifier.append (by decide) (isIdentifier_toString k)

/-- The outputs of a join keep within any vocabulary. -/
theorem isWithin_outputSections : (join.outputSections schema).IsWithin v := by
  have number {part : String} (word : IsIdentifier part) :
      (Sections.plain "size_t" (join.named part) "0").IsWithin v := by
    refine .plain ?_ (join.isWithin_named.2 word) ?_ <;>
      simp (disch := first | decide | exact rfl)
  refine ((number (by decide)).append (number (by decide))).append (.concat
    (List.forall_mem_map.2 fun output member => ?_))
  exact .buffer output.2.isWithin_representation (join.isWithin_of_mem_outputs schema member)

/-- Storing a batch keeps within the vocabulary of the batch. -/
theorem isWithin_storeBatch {batch : Batch} (within : batch.IsWithin v) :
    AllOf (Statement.IsWithin v) (join.storeBatch batch) := by
  have index : (join.named "i").IsWithin v := by simp (disch := first | decide | exact rfl)
  exact AllOf.cons_iff.2 ⟨within.loop index (join.isWithin_store (within.row index)), .nil⟩

section

variable (has : v.words .vectorSize)
include has

/-- Collecting a row in the outputs keeps within the row's vocabulary. -/
theorem isWithin_collect {row : List Value} (within : AllOf (Value.IsWithin v) row) :
    AllOf (Statement.IsWithin v) (join.collect schema row) := by
  have output : ∀ name type, (name, type) ∈ join.outputs schema → name.IsWithin v :=
    fun name type => join.isWithin_of_mem_outputs schema
  have stored : ∀ name type value, ((name, type), value) ∈ (join.outputs schema).zip row →
      name.IsWithin v ∧ value.code.IsWithin v := fun name type value member =>
    ⟨output name type (List.of_mem_zip member).1, within value (List.of_mem_zip member).2⟩
  simpa (disch := first | decide | exact rfl) [collect, Piece.isWithin_text_of_words _ has] using
    And.intro output stored

/-- The slices of a join's outputs keep within a vocabulary that knows the vector size. -/
theorem isWithin_slices :
    AllOf (Step.IsWithin v) (join.slices schema).1 ∧ (join.slices schema).2.IsWithin v := by
  have word {part : String} (isWord : IsIdentifier part) : (join.named part).IsWithin v := isWord
  have count : ((join.named "on" : Name) : Code).IsWithin v :=
    Code.isWithin_name.2 (word (by decide))
  exact Batch.isWithin_slices has _ _ (word (by decide)) (word (by decide)) count
    (List.forall_mem_map.2 fun output member =>
      Code.isWithin_name.2 (join.isWithin_of_mem_outputs schema member))

/-- A batch is paired in a loop around the search for the rows that agree with one of its rows. -/
theorem isWithin_pairBatch (helpers : v.HasHelpers) {batch : Batch} (within : batch.IsWithin v)
    (checked : Bool) {key : Value} (keyWithin : key.IsWithin v) :
    (join.pairBatch checked schema batch key).IsWithin v := by
  have index : (join.named "i").IsWithin v := show IsIdentifier "i" by decide
  exact within.loop index (Context.isWithin_fill (join.isWithin_probe helpers checked keyWithin)
    (join.isWithin_collect schema has
      (AllOf.append_iff.2 ⟨join.isWithin_found, within.row index⟩)))

/-- All that a join does with the pairs of rows. -/
theorem gives_isWithin_probeBatch (helpers : v.HasHelpers) {batch : Batch}
    (within : batch.IsWithin v) (checked : Bool) (rightKey : UInt32) :
    Gives (join.probeBatch checked schema rightKey batch) fun next =>
      AllOf (Step.IsWithin v) next.context ∧ next.output.IsWithin v := by
  have index : (join.named "i").IsWithin v := show IsIdentifier "i" by decide
  refine (gives_keyOf (within.row index) rightKey).bind fun key keyWithin => .ok ?_
  have empties : (Statement.line (join.named "on" ++ " = 0;")).IsWithin v := by
    simp (disch := first | decide | exact rfl)
  obtain ⟨steps, slice⟩ := join.isWithin_slices schema has
  exact ⟨AllOf.cons_iff.2 ⟨empties, AllOf.cons_iff.2
    ⟨join.isWithin_pairBatch schema has helpers within checked keyWithin, steps⟩⟩, slice⟩

end

end Join

section

variable {simd : Bool} (directs : simd = true → v.directives)
include directs

/-- Adding a batch to an accumulator keeps within the vocabulary of both. -/
theorem BatchPipeline.gives_isWithin_accumulate {batch : Batch} (within : batch.IsWithin v)
    (aggregate : Aggregate) (type : DataType) {accumulator index : Name}
    (accumulatorWithin : accumulator.IsWithin v) (indexWithin : index.IsWithin v) :
    Gives (accumulate batch simd aggregate type accumulator index) (Statement.IsWithin v) := by
  have update (aggregate : Aggregate) := Groups.gives_isWithin_accumulate
    (within.row indexWithin) aggregate (Code.isWithin_name.2 accumulatorWithin)
  cases aggregate with
  | count =>
    exact .ok (by simp (disch := first | decide | exact rfl) [accumulatorWithin, within.length])
  | sum | min | max =>
    refine (update _).bind fun update updateWithin => .ok ?_
    exact Statement.isWithin_block.2
      ⟨Head.isWithin_upTo_withDirective (fun holds => directs holds.1)
        (Code.isDirective_reduction accumulatorWithin) indexWithin within.length, updateWithin⟩

end

namespace Groups

variable (groups : Groups)

/-- Taking a batch into the groups needs only the find function. -/
theorem gives_isWithin_gatherBatch (defined : .groupsFind groups.node ∈ v.functions) {batch : Batch}
    (within : batch.IsWithin v) (checked : Bool) (groupBy : List UInt32) :
    Gives (groups.gatherBatch checked groupBy batch) (AllOf (Statement.IsWithin v)) := by
  have word {part : String} (isWord : IsIdentifier part) : (groups.named part).IsWithin v := isWord
  have index := word (show IsIdentifier "i" by decide)
  have group := word (show IsIdentifier "g" by decide)
  have ids := word (show IsIdentifier "gid" by decide)
  have row := within.row index
  -- one loop finds the groups of the rows, and each aggregate has a loop of its own
  refine (gives_isWithin_find row defined group).bind fun found foundWithin => Gives.bind
    (.mapM (S := Statement.IsWithin v) fun entry _ => ?_) fun updates updatesWithin => .ok ?_
  · have slot : (groups.slot entry.2 (groups.named "g")).IsWithin v :=
      groups.isWithin_slot.2 (Code.isWithin_name.2 group)
    refine (gives_isWithin_accumulate row entry.1.1 slot).bind fun update updateWithin => .ok ?_
    refine within.loop index (AllOf.cons_iff.2 ⟨?_, AllOf.append_iff.2
      ⟨groups.isWithin_checkGroup checked group, updateWithin⟩⟩)
    simp (disch := first | decide | exact rfl) [index, group, ids]
  · refine AllOf.cons_iff.2 ⟨within.loop index (AllOf.append_iff.2 ⟨foundWithin, ?_⟩),
      updatesWithin⟩
    simp (disch := first | decide | exact rfl) [index, group, ids]

/-- The slices of the groups keep within a vocabulary that knows the vector size. -/
theorem isWithin_slices (has : v.words .vectorSize) :
    AllOf (Step.IsWithin v) groups.slices.1 ∧ groups.slices.2.IsWithin v := by
  refine Batch.isWithin_slices has (groups.named "base") (groups.named "n")
    (groups.isWithin_named.2 (by decide)) (groups.isWithin_named.2 (by decide))
    groups.isWithin_count (List.forall_mem_append.2 ⟨List.forall_mem_map.2 fun _ _ => ?_,
      List.forall_mem_map.2 fun _ _ => ?_⟩)
  all_goals simp (disch := simp) [Piece.isWithin_of_notMem_k]

/-- Taking a batch into the accumulators without groups keeps within the batch's vocabulary. -/
theorem gives_isWithin_summariseBatch {simd : Bool} (directs : simd = true → v.directives)
    {batch : Batch} (within : batch.IsWithin v) :
    Gives (groups.summariseBatch simd batch) (AllOf (Statement.IsWithin v)) := by
  refine Gives.bind (.mapM (S := Statement.IsWithin v) fun entry _ => ?_)
    fun updates updatesWithin => .ok (AllOf.append_iff.2 ⟨.ite ?_ .nil, updatesWithin⟩)
  · exact BatchPipeline.gives_isWithin_accumulate directs within entry.1.1 entry.1.2
      (groups.isWithin_accumulator entry.2) (show IsIdentifier "i" by decide)
  · simp (disch := first | decide | exact rfl) [within.length]

/-- The arrays for the totals and their values keep within any vocabulary. -/
theorem isWithin_of_mem_totalArrays {array : Name × Value} (member : array ∈ groups.totalArrays) :
    array.1.IsWithin v ∧ array.2.code.IsWithin v := by
  obtain ⟨⟨value, j⟩, found, rfl⟩ := List.mem_map.1 member
  exact ⟨IsIdentifier.append (by decide) (isIdentifier_toString j),
    groups.isWithin_totals.of_mem_zipIdx found⟩

/-- Storing the totals keeps within any vocabulary. -/
theorem isWithin_storeTotals : AllOf (Statement.IsWithin v) groups.storeTotals := by
  refine AllOf.flatMap_iff.2 fun array member => ?_
  obtain ⟨name, value⟩ := groups.isWithin_of_mem_totalArrays (v := v) member
  simp (disch := first | decide | exact rfl) [name, value]

/-- The batch of the totals keeps within any vocabulary. -/
theorem isWithin_totalBatch : groups.totalBatch.IsWithin v where
  columns := AllOf.map_iff.2 fun array member =>
    ⟨Code.isWithin_name.2 (groups.isWithin_of_mem_totalArrays member).1, by simp⟩
  length := by simp (disch := first | decide | exact rfl) [totalBatch]
  selection := by simp [totalBatch]

end Groups

namespace BatchPipeline

/-- A pipeline that hands on batches within a vocabulary. -/
abbrev IsWithin (v : Vocabulary) (pipeline : BatchPipeline) : Prop :=
  Pipeline.IsWithin (Batch.IsWithin v) v pipeline

/-- The vectors of a projection are named after its columns. -/
theorem isWithin_of_mem_projectionArrays {k : Nat} {types : Schema} {array : Name × DataType}
    (member : array ∈ projectionArrays k types) : array.1.IsWithin v := by
  obtain ⟨⟨type, j⟩, -, rfl⟩ := List.mem_map.1 member
  exact IsIdentifier.append (by decide) (isIdentifier_toString j)

variable {checked simd : Bool} {site : Site} {input left right : BatchPipeline} {groups : Groups}

section

variable (has : v.words .vectorSize)
include has

/-- A scan in batches keeps within a vocabulary that knows the vector size. -/
theorem isWithin_scan (columns : List ScanColumn) : (scan site columns).IsWithin v := by
  have rows : (Code.member (Table.record site.node) "rows").IsWithin v := by
    simp (disch := first | decide | exact rfl)
  have arrays : ∀ array ∈ columns.zipIdx.map (fun entry =>
      (Code.member (Table.record site.node) s!"c{entry.2}", entry.1.type)), array.1.IsWithin v :=
    List.forall_mem_map.2 fun _ _ => by simp (disch := simp) [Piece.isWithin_of_notMem_k]
  have word (part : String) (isWord : IsIdentifier part) :
      (Name.ofNode .table site.node (some part)).IsWithin v := isWord
  obtain ⟨steps, batch⟩ := Batch.isWithin_slices has _ _ (word "base" (by decide))
    (word "n" (by decide)) rows arrays
  exact ⟨.empty, steps, batch⟩

/-- The arrays of a projection keep within a vocabulary that knows the vector size. -/
theorem isWithin_projectionSections (k : Nat) (types : Schema) :
    (projectionSections k types).IsWithin v :=
  .concat (List.forall_mem_map.2 fun array member =>
    .vector array.2.isWithin_representation (isWithin_of_mem_projectionArrays member) has)

section

variable (divides : checked = true → .helper .divide ∈ v.functions) (helpers : v.HasHelpers)
include divides helpers

/-- A filter keeps within the vocabulary of its input if that has what the predicate calls. -/
theorem gives_isWithin_filter (known : input.IsWithin v) (predicate : Expr) :
    Gives (input.filter checked simd site predicate) (IsWithin v) := by
  have word {part : String} (isWord : IsIdentifier part) :
      (Name.ofNode .filter site.node (some part)).IsWithin v := isWord
  have index := word (show IsIdentifier "i" by decide)
  have count := word (show IsIdentifier "n" by decide)
  have selection := word (show IsIdentifier "sel" by decide)
  refine (Expr.gives_isWithin_lower divides helpers (known.output.row index) predicate).bind
    fun condition conditionWithin => .ok ?_
  rw [Value.isWithin_iff] at conditionWithin
  have position := known.output.position index
  -- a row is kept with a branch or without one; both ways are made of the same parts
  have kept : AllOf (Statement.IsWithin v) (if simd then
      [.line (.element (Name.ofNode .filter site.node (some "sel"))
          (Name.ofNode .filter site.node (some "n")) ++ " = " ++
            ("(uint32_t)" ++ input.output.position (.ofNode .filter site.node (some "i"))) ++ ";"),
        .line (Name.ofNode .filter site.node (some "n") ++ " += (size_t)" ++ condition.code ++ ";")]
    else
      [.control ("if (" ++ condition.code ++ ")")
        (.element (Name.ofNode .filter site.node (some "sel"))
          (Name.ofNode .filter site.node (some "n") ++ "++") ++ " = " ++
            ("(uint32_t)" ++ input.output.position (.ofNode .filter site.node (some "i"))) ++ ";")])
      := by
    split <;> simp (disch := first | decide | exact rfl) [position, conditionWithin]
  refine known.extend (.vector (by simp (disch := first | decide | exact rfl)) selection has)
    (AllOf.cons_iff.2 ⟨?_, AllOf.cons_iff.2
      ⟨Step.isWithin_run.2 (known.output.loop index kept), ?_⟩⟩)
    { columns := known.output.columns
      length := Code.isWithin_name.2 count
      selection := by rintro _ ⟨⟩; exact selection }
  all_goals simp (disch := first | decide | exact rfl)

/-- A projection keeps within the vocabulary of its input, with directives if it asks for them. -/
theorem gives_isWithin_project (directs : simd = true → v.directives) (known : input.IsWithin v)
    (schema : Schema) (expressions : List Expr) :
    Gives (input.project checked simd site schema expressions) (IsWithin v) := by
  have index : (Name.ofNode .projection site.node (some "i")).IsWithin v :=
    show IsIdentifier "i" by decide
  refine .of_bind fun types => (Expr.gives_isWithin_lowerEach divides helpers
    (known.output.row index) expressions).bind fun row rowWithin => .ok ?_
  have columns : AllOf (BatchColumn.IsWithin v) ((projectionArrays site.node types).map fun array =>
      { array := array.1, offset := none, type := array.2 }) :=
    AllOf.map_iff.2 fun array member =>
      ⟨Code.isWithin_name.2 (isWithin_of_mem_projectionArrays member), nofun⟩
  -- one loop assigns all columns, with a directive in front of it if one is allowed
  refine known.extend (isWithin_projectionSections has site.node types)
    (AllOf.cons_iff.2 ⟨Step.isWithin_run.2 (Statement.isWithin_block.2
      ⟨Head.isWithin_upTo_withDirective (fun holds => directs holds.1) Code.isDirective_simd index
        known.output.length, AllOf.map_iff.2 fun (column, value) member => ?_⟩), .nil⟩)
    { columns, length := known.output.length, selection := nofun }
  have assigned := (columns column (List.of_mem_zip member).1).atRow (Code.isWithin_name.2 index)
  have read : value.code.IsWithin v := rowWithin value (List.of_mem_zip member).2
  simp (disch := first | decide | exact rfl) [assigned, read]

omit divides in
/-- A join keeps within the vocabulary of its inputs, with the helpers and the vector size. -/
theorem gives_isWithin_join (leftKnown : left.IsWithin v) (rightKnown : right.IsWithin v)
    (join : Join) (schema : Schema) (rightKey : UInt32) :
    Gives (left.join right checked join schema rightKey) (IsWithin v) := by
  refine (join.gives_isWithin_probeBatch schema has helpers rightKnown.output checked
    rightKey).bind fun probed probedWithin => .ok ?_
  exact leftKnown.join join.isWithin_sections (join.isWithin_storeBatch leftKnown.output)
    (join.isWithin_buildIndex helpers)
    (rightKnown.extend (join.isWithin_outputSections schema) probedWithin.1 probedWithin.2)

end

/-- An aggregation with groups keeps within a vocabulary that knows its find function. -/
theorem gives_isWithin_group (known : input.IsWithin v)
    (defined : .groupsFind groups.node ∈ v.functions) (groupBy : List UInt32) :
    Gives (input.group checked groups groupBy) (IsWithin v) := by
  refine (groups.gives_isWithin_gatherBatch defined known.output checked groupBy).bind
    fun taken takenWithin => .ok ?_
  have ids : (Sections.vector "size_t" (groups.named "gid")).IsWithin v := by
    refine .vector ?_ ?_ has <;> simp (disch := first | decide | exact rfl)
  obtain ⟨steps, slice⟩ := groups.isWithin_slices has
  exact known.gather (groups.isWithin_sections.append ids) takenWithin steps slice

end

/-- An aggregation without groups keeps within the vocabulary of its input. -/
theorem gives_isWithin_summarise (directs : simd = true → v.directives) (known : input.IsWithin v) :
    Gives (input.summarise simd groups) (IsWithin v) := by
  refine (groups.gives_isWithin_summariseBatch directs known.output).bind
    fun taken takenWithin => .ok ?_
  have block : (Step.enter .bare).IsWithin v := trivial
  have single := AllOf.cons_iff.2 ⟨block, Context.allOf_isWithin_runAll.2
    (groups.isWithin_storeTotals (v := v))⟩
  exact known.gather groups.isWithin_sections takenWithin single groups.isWithin_totalBatch

end BatchPipeline

section

variable {checked simd : Bool} (has : v.words .vectorSize)
  (divides : checked = true → .helper .divide ∈ v.functions) (directs : simd = true → v.directives)
  (helpers : v.HasHelpers)
include has divides directs helpers

/-- The pipeline of a tree keeps within a vocabulary that has its functions, and directives where
they are asked for. -/
theorem PlanTree.gives_isWithin_batches {tree : PlanTree} (known : tree.IsKnown v) :
    Gives (tree.batches checked simd) (BatchPipeline.IsWithin v) := by
  induction tree with
  | scan site table columns => exact .ok (BatchPipeline.isWithin_scan has columns)
  | filter site predicate input ih =>
    exact (ih known).bind fun pipeline within =>
      BatchPipeline.gives_isWithin_filter has divides helpers within predicate
  | project site expressions input ih =>
    exact (ih known).bind fun pipeline within =>
      BatchPipeline.gives_isWithin_project has divides helpers directs within input.schema
        expressions
  | join site leftKey rightKey left right ihLeft ihRight =>
    exact .of_bind fun join => (ihLeft known.join.1).bind fun _ leftWithin =>
      (ihRight known.join.2).bind fun _ rightWithin =>
        BatchPipeline.gives_isWithin_join has helpers leftWithin rightWithin join site.schema
          rightKey
  | aggregate site groupBy aggregates input ih =>
    -- which functions the groups ask for is known only from the groups themselves
    refine Gives.bind (fun _ => id) fun groups found => ?_
    obtain ⟨grouped, inputKnown⟩ := known.aggregate found
    refine (ih inputKnown).bind fun pipeline within => ?_
    split
    · rename_i isGrouped
      exact BatchPipeline.gives_isWithin_group has within (grouped isGrouped) groupBy
    · exact BatchPipeline.gives_isWithin_summarise directs within

end

end PlanCompiler
