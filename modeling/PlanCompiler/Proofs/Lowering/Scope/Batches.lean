import PlanCompiler.Proofs.Lowering.Scope.Rows

/-!
# Scopes of pipelines with a batch at hand

A batch mentions its arrays, the positions where its slices start, and its length. Loops over a
batch stand at the open place of a pipeline, and everything they mention besides is declared at the
top of the program.

## Main definitions

* `Batch.IsPlain`: what a batch mentions is visible;
* `BatchPipeline.IsScoped`: what is known of the open place of a pipeline;
* `BatchPipeline.IsReady`: that this is known if the needs of the pipeline are declared.

## Main results

* `PlanTree.gives_isReady_batches`: the pipeline of a tree;
* `Plan.gives_reads_lowerVectorised`: the statements of a plan.
-/

namespace PlanCompiler

open Code Scope

namespace Batch

variable {scopes : Names} {batch : Batch}

/-- All that a batch mentions is visible. -/
structure IsPlain (scopes : Names) (batch : Batch) : Prop where
  /-- The arrays. -/
  arrays : ∀ column ∈ batch.columns, column.array.IsPlain scopes
  /-- The starts of slices. -/
  offsets : ∀ column ∈ batch.columns, ∀ offset ∈ column.offset, scopes.Has offset
  /-- The number of rows. -/
  length : batch.length.IsPlain scopes
  /-- The array of positions. -/
  selection : ∀ selection ∈ batch.selection, scopes.Has selection

/-- A plain batch stays plain below. -/
theorem IsPlain.mono {scopes' : Names} (plain : batch.IsPlain scopes)
    (below : scopes.Below scopes') : batch.IsPlain scopes' :=
  { arrays := fun column member => (plain.arrays column member).mono below
    offsets := fun column member offset found =>
      (plain.offsets column member offset found).mono below
    length := plain.length.mono below
    selection := fun selection found => (plain.selection selection found).mono below }

/-- The position of a known row in a plain batch is plain. -/
theorem isPlain_position (plain : batch.IsPlain scopes) {index : Name}
    (known : scopes.Has index) : (batch.position index).IsPlain scopes := by
  have indexPlain := isPlain_variable known
  rw [position]
  split
  · rename_i selection found
    exact (isPlain_variable (plain.selection selection found)).element indexPlain
  · exact indexPlain

/-- The values of a known row in a plain batch are plain. -/
theorem isPlain_row (plain : batch.IsPlain scopes) {index : Name} (known : scopes.Has index) :
    ∀ value ∈ batch.row index, value.IsPlain scopes := by
  have position := isPlain_position plain known
  intro value member
  obtain ⟨column, found, rfl⟩ := List.mem_map.1 member
  refine (plain.arrays column found).element ?_
  split
  · rename_i offset start
    exact (Fits.hole (isPlain_variable (plain.offsets column found offset start)) |>.text _
      |>.code position).isPlain rfl
  · exact position

/-- A loop over a batch in which names may be declared. -/
theorem reads_loop (plain : batch.IsPlain scopes) {index : Name} (word : IsIdentifier index.text)
    {body : List Statement} {names : List Name}
    (reads : Reads body ([index] :: scopes) (names :: scopes)) :
    Reads [batch.loop index body] scopes scopes :=
  .block (.upTo word plain.length) reads

/-- The slices of arrays are at hand in a loop that declares their start and their length. -/
theorem closes_slices {base name : Name} {node : Nat} (baseWord : IsIdentifier base.text)
    (nameWord : IsIdentifier name.text) (ofNode : name.node? = some node) (fresh : name ≠ base)
    {total : Code} (totalPlain : total.IsPlain scopes) {arrays : List (Code × DataType)}
    (arraysPlain : ∀ entry ∈ arrays, entry.1.IsPlain scopes) :
    Closes scopes ([name, base] :: scopes) (slices base name total arrays).1 ∧
      (slices base name total arrays).2.IsPlain ([name, base] :: scopes) := by
  have start := isPlain_variable (Names.has_declared baseWord [] scopes)
  have totalInside := totalPlain.enter [base]
  -- the loop declares the start of the slice, and its first line the length
  refine ⟨(Closes.enter (.batches baseWord totalPlain)).append (.run (.declare ofNode nameWord
    (Fits.start _ |>.code totalInside |>.text _ |>.code start |>.text _ |>.code totalInside
      |>.text _ |>.code start |>.text _) ?_)), ?_, ?_, ?_, nofun⟩
  · simpa using fresh
  · intro column member
    obtain ⟨entry, found, rfl⟩ := List.mem_map.1 member
    exact (arraysPlain entry found).enter _
  · intro column member
    obtain ⟨entry, found, rfl⟩ := List.mem_map.1 member
    rintro offset ⟨⟩
    exact (Names.has_declared baseWord [] scopes).mono (Names.below_declare name [base] scopes)
  · exact isPlain_variable (Names.has_declared nameWord [base] scopes)

end Batch

namespace Join

variable {join : Join} {schema : Schema} {scopes : Names}

/-- The buffers of a join for its rows are declared. -/
structure IsBuffered (join : Join) (schema : Schema) (scopes : Names) : Prop where
  count : scopes.Has (join.named "on")
  cap : scopes.Has (join.named "ocap")
  output : ∀ entry ∈ join.outputs schema, scopes.Has entry.1

/-- The outputs of a join are visible where all their variables are known. -/
theorem isBuffered_of_names (known : ∀ name ∈ (join.outputSections schema).names, scopes.Has name) :
    join.IsBuffered schema scopes := by
  rw [names_outputSections] at known
  refine ⟨known _ (by simp), known _ (by simp), fun entry member => ?_⟩
  obtain ⟨⟨type, k⟩, column, rfl⟩ := List.mem_map.1 member
  refine known _ (List.mem_append_right _ ?_)
  exact Name.mem_numbered_iff.2 ⟨k, lt_of_mem_zipIdx column, rfl⟩

/-- The outputs of a join stay visible below. -/
theorem IsBuffered.mono {scopes' : Names} (buffered : join.IsBuffered schema scopes)
    (below : scopes.Below scopes') : join.IsBuffered schema scopes' :=
  { count := buffered.count.mono below
    cap := buffered.cap.mono below
    output := fun entry member => (buffered.output entry member).mono below }

/-- Putting a row into the buffers declares nothing. -/
theorem reads_collect (buffered : join.IsBuffered schema scopes) {row : List Value}
    (plain : ∀ value ∈ row, value.IsPlain scopes) :
    Reads (join.collect schema row) scopes scopes := by
  have count := isPlain_variable buffered.count
  refine .cons (reads_grow buffered.count buffered.cap buffered.output)
    (.append (.all ?_) (.line ?_))
  · intro statement member
    obtain ⟨⟨⟨name, type⟩, value⟩, found, rfl⟩ := List.mem_map.1 member
    obtain ⟨entry, inRow⟩ := List.of_mem_zip found
    have place := (isPlain_variable (buffered.output _ entry)).element count
    exact .line ((Fits.hole place |>.text _ |>.code (plain value inRow) |>.text _).isPlain rfl)
  · exact (Fits.hole count |>.text _).isPlain rfl

section

variable {batch : Batch} (plain : batch.IsPlain scopes)
include plain

/-- A batch of the left input is stored in a loop that declares nothing outside of it. -/
theorem reads_storeBatch (visible : join.IsVisible scopes)
    (width : batch.columns.length = join.stored.length) :
    Reads (join.storeBatch batch) scopes scopes := by
  have indexWord : IsIdentifier (join.named "i").text := join.isIdentifier_named (by decide)
  have indexKnown := Names.has_declared indexWord [] scopes
  have inLoop := Names.below_enter scopes [join.named "i"]
  have width : (batch.row (join.named "i")).length = join.stored.length := by
    rw [Batch.row, List.length_map, width]
  exact Batch.reads_loop plain indexWord
    (reads_store (visible.mono inLoop) width (Batch.isPlain_row (plain.mono inLoop) indexKnown))

/-- A batch of the right input is paired in a loop, and all scopes around the rows that are found
are closed again. -/
theorem reads_pairBatch (visible : join.IsVisible scopes) (stored : join.key < join.stored.length)
    (buffered : join.IsBuffered schema scopes) (checked : Bool) {key : Value}
    (keyPlain : key.IsPlain ([join.named "i"] :: scopes)) :
    Reads [join.pairBatch checked schema batch key] scopes scopes := by
  have indexWord : IsIdentifier (join.named "i").text := join.isIdentifier_named (by decide)
  have indexKnown := Names.has_declared indexWord [] scopes
  have inLoop := Names.below_enter scopes [join.named "i"]
  have found := inLoop.trans (join.below_inside ([join.named "i"] :: scopes))
  have row := Batch.isPlain_row (plain.mono inLoop) indexKnown
  -- both halves of a pair are seen inside of the probe, which stands inside of the loop
  have paired : ∀ value ∈ join.found ++ batch.row (join.named "i"),
      value.IsPlain (join.inside ([join.named "i"] :: scopes)) :=
    List.forall_mem_append.2 ⟨isPlain_found (visible.mono inLoop), fun value member =>
      (row value member).mono (join.below_inside _)⟩
  have collects := reads_collect (buffered.mono found) paired
  obtain ⟨names, reads⟩ := leads_probe (visible.mono inLoop) stored checked keyPlain _
    collects.stays
  exact Batch.reads_loop plain indexWord reads

end

/-- The collected rows are read slice by slice. -/
theorem closes_slices (buffered : join.IsBuffered schema scopes) :
    Closes scopes ([join.named "n", join.named "base"] :: scopes) (join.slices schema).1 ∧
      (join.slices schema).2.IsPlain ([join.named "n", join.named "base"] :: scopes) := by
  have baseWord : IsIdentifier (join.named "base").text := join.isIdentifier_named (by decide)
  have nameWord : IsIdentifier (join.named "n").text := join.isIdentifier_named (by decide)
  refine Batch.closes_slices baseWord nameWord rfl (by simp [Join.named])
    (isPlain_variable buffered.count) fun entry member => ?_
  obtain ⟨output, found, rfl⟩ := List.mem_map.1 member
  exact isPlain_variable (buffered.output output found)

/-- A batch of the right input leads into the scope around a slice of the rows that are paired
with it. -/
theorem gives_leads_probeBatch (checked : Bool) {here : List Name} {outer : Names} {batch : Batch}
    (plain : batch.IsPlain (here :: outer)) (visible : join.IsVisible (here :: outer))
    (stored : join.key < join.stored.length) (buffered : join.IsBuffered schema (here :: outer))
    (rightKey : UInt32) :
    Gives (join.probeBatch checked schema rightKey batch) fun probed =>
      Leads (here :: outer) ([join.named "n", join.named "base"] :: here :: outer) probed.context ∧
        probed.output.IsPlain ([join.named "n", join.named "base"] :: here :: outer) := by
  have indexWord : IsIdentifier (join.named "i").text := join.isIdentifier_named (by decide)
  have row := Batch.isPlain_row (plain.mono (Names.below_enter _ [join.named "i"]))
    (Names.has_declared indexWord [] (here :: outer))
  refine (gives_keyOf row rightKey).bind fun key keyPlain => .ok ?_
  -- the outputs are emptied, filled by one batch, and handed on in slices
  have empties : Reads [.line (join.named "on" ++ " = 0;")] (here :: outer) (here :: outer) :=
    .line ((Fits.hole (isPlain_variable buffered.count) |>.text _).isPlain rfl)
  have pairs := reads_pairBatch plain visible stored buffered checked keyPlain
  obtain ⟨slices, slicePlain⟩ := closes_slices buffered
  exact ⟨.cons (.run empties) (.cons (.run pairs) slices.leads), slicePlain⟩

end Join

namespace Groups

variable {groups : Groups} {batch : Batch}

/-- The groups of a batch are found first, and then each aggregate is taken in by itself. -/
theorem gives_reads_gatherBatch (checked : Bool) {here : List Name} {outer : Names}
    (plain : batch.IsPlain (here :: outer)) (recordKnown : Names.Has (here :: outer) groups.record)
    (known : Names.Has (here :: outer) (groups.named "gid")) (groupBy : List UInt32) :
    Gives (groups.gatherBatch checked groupBy batch) fun taken =>
      Reads taken (here :: outer) (here :: outer) := by
  have indexWord : IsIdentifier (groups.named "i").text := groups.isIdentifier_named (by decide)
  have groupWord : IsIdentifier (groups.named "g").text := groups.isIdentifier_named (by decide)
  have fresh : groups.named "g" ∉ [groups.named "i"] := by simp [Groups.named]
  -- the loops over the batch, and what they see once the group of a row is at hand
  have inLoop := Names.below_enter (here :: outer) [groups.named "i"]
  have withGroup := Names.below_declare (groups.named "g") [groups.named "i"] (here :: outer)
  have indexKnown := Names.has_declared indexWord [] (here :: outer)
  have groupKnown := Names.has_declared groupWord [groups.named "i"] (here :: outer)
  have row := Batch.isPlain_row (plain.mono inLoop) indexKnown
  have record := recordKnown.mono inLoop
  have groupId := (isPlain_variable (known.mono inLoop)).element (isPlain_variable indexKnown)
  have group := isPlain_variable groupKnown
  refine (gives_reads_find record row groupBy (by decide) fresh).bind fun found readsFound => ?_
  have assigns : Reads (found ++
      [.line (.element (groups.named "gid") (groups.named "i") ++ " = " ++
      groups.named "g" ++ ";")]) ([groups.named "i"] :: here :: outer)
      ([groups.named "g", groups.named "i"] :: here :: outer) :=
    readsFound.append (.line ((Fits.hole (groupId.mono withGroup) |>.text _ |>.code group
      |>.text _).isPlain rfl))
  refine (Gives.mapM (S := fun update => Reads [update] (here :: outer) (here :: outer)) ?_).bind
    fun updates readsUpdates => .ok (.cons (Batch.reads_loop plain indexWord assigns)
      (.all readsUpdates))
  rintro ⟨⟨aggregate, type⟩, j⟩ -
  refine (gives_reads_accumulate (fun value member => (row value member).mono withGroup)
    aggregate (isPlain_slot (record.mono withGroup) group j)).bind fun update readsUpdate => .ok ?_
  exact Batch.reads_loop plain indexWord (.cons (.declare rfl groupWord
    (Fits.start _ |>.code groupId |>.text _) fresh)
      ((reads_checkGroup checked (record.mono withGroup) groupKnown).append readsUpdate))

/-- The groups are read slice by slice from the columns of their table. -/
theorem closes_slices {scopes : Names} (recordKnown : scopes.Has groups.record) :
    Closes scopes ([groups.named "n", groups.named "base"] :: scopes) groups.slices.1 ∧
      groups.slices.2.IsPlain ([groups.named "n", groups.named "base"] :: scopes) := by
  have baseWord : IsIdentifier (groups.named "base").text := groups.isIdentifier_named (by decide)
  have nameWord : IsIdentifier (groups.named "n").text := groups.isIdentifier_named (by decide)
  have recordPlain := isPlain_variable recordKnown
  have count : groups.count.IsPlain scopes := recordPlain.member (by decide)
  refine Batch.closes_slices baseWord nameWord rfl (by simp [Groups.named]) count
    (List.forall_mem_append.2 ⟨fun entry member => ?_, fun entry member => ?_⟩)
  · obtain ⟨⟨type, k⟩, -, rfl⟩ := List.mem_map.1 member
    exact recordPlain.member (isMember_key k)
  · obtain ⟨⟨result, j⟩, -, rfl⟩ := List.mem_map.1 member
    exact recordPlain.member (isMember_slot j)

/-- Storing a total declares an array with one element. -/
theorem reads_storeTotal {scopes : Names} {name : Name} {value : Value} {node : Nat}
    (ofNode : name.node? = some node) (word : IsIdentifier name.text)
    (plain : value.IsPlain scopes) {here : List Name} (fresh : name ∉ here) :
    Reads
      [.declare (value.type.representation ++ " ") name "[1];",
        .line (.element name "0" ++ " = " ++ value.code ++ ";")]
      (here :: scopes) ((name :: here) :: scopes) := by
  have array := isPlain_variable (Names.has_declared word here scopes)
  have first : ("0" : Code).IsPlain ((name :: here) :: scopes) := (Fits.start _).isPlain rfl
  have place := array.element first
  exact .cons (.declare ofNode word (.start _) fresh value.type.isType_representation)
    (.line ((Fits.hole place |>.text _ |>.code (plain.enter _) |>.text _).isPlain rfl))

/-- The arrays of the single row are numbered. -/
theorem map_fst_totalArrays (groups : Groups) : groups.totalArrays.map Prod.fst =
    Name.numbered .aggregation groups.node "o" groups.totals.length := by
  rw [totalArrays, List.map_map]
  exact map_zipIdx_eq_map_range fun _ _ => rfl

/-- What is stored in the arrays of the single row is seen where the accumulators are. -/
theorem isPlain_of_mem_totalArrays {scopes : Names} (visible : groups.IsVisible scopes)
    (ungrouped : groups.isGrouped = false) {array : Name × Value}
    (member : array ∈ groups.totalArrays) : IsIdentifier array.1.text ∧
      array.1.node? = some groups.node ∧ array.2.IsPlain scopes := by
  obtain ⟨⟨value, j⟩, found, rfl⟩ := List.mem_map.1 member
  exact ⟨Name.isIdentifier_ofNode _ _ (isIdentifier_numbered (by decide) j), rfl,
    isPlain_totals visible ungrouped value (List.fst_mem_of_mem_zipIdx found)⟩

/-- Storing the totals declares their arrays. -/
theorem reads_storeTotals {scopes : Names} (visible : groups.IsVisible scopes)
    (ungrouped : groups.isGrouped = false) :
    Reads groups.storeTotals ([] :: scopes)
      ((groups.totalArrays.map Prod.fst).reverse :: scopes) := by
  have stores : Reads groups.storeTotals ([] :: scopes)
      (((groups.totalArrays.map Prod.fst).reverse ++ []) :: scopes) := by
    refine .declareAll (fun array member names fresh => ?_) ?_ fun _ _ => List.not_mem_nil
    · obtain ⟨word, ofNode, valuePlain⟩ := isPlain_of_mem_totalArrays visible ungrouped member
      exact reads_storeTotal ofNode word valuePlain fresh
    · rw [map_fst_totalArrays]
      exact Name.nodup_numbered
  rwa [List.append_nil] at stores

/-- The single row is at hand where its arrays are declared. -/
theorem isPlain_totalBatch (groups : Groups) (scopes : Names) :
    groups.totalBatch.IsPlain ((groups.totalArrays.map Prod.fst).reverse :: scopes) where
  arrays := by
    intro column member
    obtain ⟨array, found, rfl⟩ := List.mem_map.1 member
    obtain ⟨⟨value, j⟩, -, rfl⟩ := List.mem_map.1 found
    refine isPlain_variable ⟨Name.isIdentifier_ofNode _ _ (isIdentifier_numbered (by decide) j),
      _, List.mem_cons_self, ?_⟩
    exact List.mem_reverse.2 (List.mem_map_of_mem found)
  offsets := by
    intro column member
    obtain ⟨array, -, rfl⟩ := List.mem_map.1 member
    exact nofun
  length := (Fits.start _).isPlain rfl
  selection := nofun

end Groups

namespace BatchPipeline

variable {base : List Name}

/-- The open place of a pipeline sees the variables at the top and all that its batch mentions, and
what is declared in the innermost scope belongs to one of some nodes. -/
def IsScoped (base : List Name) (positions : List Nat) (pipeline : BatchPipeline) : Prop :=
  ∃ here outer, Closes [base] (here :: outer) pipeline.context ∧
    Names.Below [base] (here :: outer) ∧ pipeline.output.IsPlain (here :: outer) ∧
    ∀ name ∈ here, ∃ node ∈ positions, name.node? = some node

/-- The open place of a pipeline is scoped if what the pipeline needs is declared at the top. -/
def IsReady (base : List Name) (positions : List Nat) (pipeline : BatchPipeline) : Prop :=
  pipeline.sections.IsVisible base → pipeline.IsScoped base positions

/-- A scan in batches is read where its table is known. -/
theorem isScoped_scan {site : Site} (known : Names.Has [base] (Table.record site.node))
    (columns : List ScanColumn) : (scan site columns).IsScoped base [site.node] := by
  have table := isPlain_variable known
  have rows : (Code.member (Table.record site.node) "rows").IsPlain [base] :=
    table.member (by decide)
  have arrays : ∀ entry ∈ columns.zipIdx.map fun entry =>
      (Code.member (Table.record site.node) s!"c{entry.2}", entry.1.type),
      entry.1.IsPlain [base] := by
    intro entry member
    obtain ⟨⟨column, k⟩, -, rfl⟩ := List.mem_map.1 member
    exact table.member (isMember_append_toString rfl rfl rfl k)
  have word (part : String) (isWord : IsIdentifier part) :
      IsIdentifier (Name.ofNode .table site.node (some part)).text :=
    Name.isIdentifier_ofNode _ _ isWord
  -- the columns are read slice by slice, straight from the table
  obtain ⟨closes, plain⟩ := Batch.closes_slices (word "base" (by decide))
    (word "n" (by decide)) rfl (by simp) rows arrays
  refine ⟨_, _, closes, Names.below_enter _ _, plain, fun name member => ?_⟩
  refine ⟨site.node, List.mem_singleton_self _, ?_⟩
  rcases List.mem_pair.1 member with rfl | rfl <;> rfl

/-- Keeping the position of a row declares nothing, with a branch or without. -/
theorem reads_keep {scopes : Names} (simd : Bool) {selection count : Name}
    {condition position : Code} (selectionKnown : scopes.Has selection)
    (countKnown : scopes.Has count)
    (conditionPlain : condition.IsPlain scopes) (positionPlain : position.IsPlain scopes) :
    Reads
      (if simd then
        [.line (.element selection count ++ " = " ++ ("(uint32_t)" ++ position) ++ ";"),
          .line (count ++ " += (size_t)" ++ condition ++ ";")]
      else
        [.control ("if (" ++ condition ++ ")")
          (.element selection (count ++ "++") ++ " = " ++ ("(uint32_t)" ++ position) ++ ";")])
      scopes scopes := by
  have countPlain := isPlain_variable countKnown
  have selectionPlain := isPlain_variable selectionKnown
  have cast : ("(uint32_t)" ++ position : Code).IsPlain scopes :=
    (Fits.start _ |>.code positionPlain).isPlain rfl
  have next : (count ++ "++" : Code).IsPlain scopes := (Fits.hole countPlain |>.text _).isPlain rfl
  -- with hints there is no branch: the position is stored, and the count may stay
  split
  · refine .cons (.line ?_) (.line ?_)
    · exact (Fits.hole (selectionPlain.element countPlain) |>.text _ |>.code cast
        |>.text _).isPlain rfl
    · exact (Fits.hole countPlain |>.text _ |>.code conditionPlain |>.text _).isPlain rfl
  · refine .control ?_ ?_
    · exact (Fits.start _ |>.code conditionPlain |>.text _).isPlain rfl
    · exact (Fits.hole (selectionPlain.element next) |>.text _ |>.code cast |>.text _).isPlain rfl

variable {checked : Bool} {input left right : BatchPipeline} {positions : List Nat}

/-- A filter declares the number of its rows in the scope that it finds. -/
theorem gives_isReady_filter (simd : Bool) (ready : input.IsReady base positions) {site : Site}
    (new : site.node ∉ positions) (predicate : Expr) :
    Gives (input.filter checked simd site predicate) (IsReady base (site.node :: positions)) := by
  refine Sections.IsVisible.assume gives_sections_filter fun known => ?_
  obtain ⟨ownKnown, inputKnown⟩ := Sections.isVisible_append.1 known
  obtain ⟨here, outer, closes, below, plain, belongs⟩ := ready inputKnown
  have known := ownKnown _ (List.mem_singleton_self _)
  let count := Name.ofNode .filter site.node (some "n")
  let index := Name.ofNode .filter site.node (some "i")
  have countWord : IsIdentifier count.text := Name.isIdentifier_ofNode _ _ (by decide)
  have indexWord : IsIdentifier index.text := Name.isIdentifier_ofNode _ _ (by decide)
  -- whatever the innermost scope has belongs to the operators below
  have fresh : count ∉ here := by
    intro member
    obtain ⟨node, member, found⟩ := belongs count member
    exact new (Option.some.inj found ▸ member)
  have counted := Names.below_declare count here outer
  have inLoop := counted.trans (Names.below_enter _ [index])
  have countKnown := Names.has_declared countWord here outer
  have indexKnown := Names.has_declared indexWord [] ((count :: here) :: outer)
  have row := Batch.isPlain_row (plain.mono inLoop) indexKnown
  refine (predicate.gives_isPlain_lower checked row).bind fun condition conditionPlain => .ok ?_
  have keeps := reads_keep simd ((known.mono below).mono inLoop) (countKnown.enter [index])
    conditionPlain (Batch.isPlain_position (plain.mono inLoop) indexKnown)
  have nonempty : ("if (" ++ count ++ " != 0)" : Code).IsPlain ((count :: here) :: outer) :=
    (Fits.start _ |>.code (isPlain_variable countKnown) |>.text _).isPlain rfl
  -- the count stays in the scope that was open, and only the test of it opens another one
  have leads : Leads (here :: outer) ([] :: (count :: here) :: outer)
      [.run (.declare "size_t " count " = 0;"), .run (input.output.loop index _),
        .enter (.control ("if (" ++ count ++ " != 0)"))] :=
    .cons (.run (.declare rfl countWord (.start _) fresh))
      (.cons (.run (Batch.reads_loop (plain.mono counted) indexWord keeps))
        (.enter (.control nonempty)))
  refine ⟨[], _, closes.append leads, ?_, ?_, List.forall_mem_nil _⟩
  · exact (below.trans counted).trans (Names.below_enter _ _)
  · have inner := plain.mono (counted.trans (Names.below_enter _ []))
    exact ⟨inner.arrays, inner.offsets, isPlain_variable (countKnown.enter []),
      fun name found => Option.some.inj found ▸ ((known.mono below).mono counted).enter []⟩

/-- The arrays of a projection are seen where its vectors are declared. -/
theorem has_projectionArrays {node : Nat} {types : Schema}
    (known : (projectionSections node types).IsVisible base) :
    ∀ array ∈ projectionArrays node types, Names.Has [base] array.1 := by
  intro array member
  obtain ⟨⟨type, k⟩, column, rfl⟩ := List.mem_map.1 member
  refine known _ ?_
  rw [names_projectionSections]
  exact Name.mem_numbered_iff.2 ⟨k, lt_of_mem_zipIdx column, rfl⟩

/-- Columns are assigned values in a loop. -/
theorem reads_assign {scopes : Names} {columns : List BatchColumn} {index : Name}
    (columnsPlain : ∀ column ∈ columns, (column.atRow index).IsPlain scopes) {values : List Value}
    (valuesPlain : ∀ value ∈ values, value.IsPlain scopes) :
    Reads ((columns.zip values).map fun (column, value) =>
      .line ((column.atRow index).code ++ " = " ++ value.code ++ ";")) scopes scopes := by
  refine .all fun statement member => ?_
  obtain ⟨⟨column, value⟩, found, rfl⟩ := List.mem_map.1 member
  obtain ⟨isColumn, isValue⟩ := List.of_mem_zip found
  exact .line ((Fits.hole (columnsPlain column isColumn) |>.text _
    |>.code (valuesPlain value isValue) |>.text _).isPlain rfl)

/-- The columns of a projection are computed in one loop. -/
theorem gives_isReady_project (simd : Bool) (ready : input.IsReady base positions) (site : Site)
    (schema : Schema) (expressions : List Expr) :
    Gives (input.project checked simd site schema expressions)
      (IsReady base (site.node :: positions)) := by
  have sections : Gives (input.project checked simd site schema expressions) fun projected =>
      projected.sections.IsVisible base → input.sections.IsVisible base :=
    .of_bind fun _ => .of_bind fun _ => .ok fun known => (Sections.isVisible_append.1 known).2
  -- what is known of the input has to be at hand before the expressions are lowered
  suffices body : input.sections.IsVisible base →
      Gives (input.project checked simd site schema expressions)
        (IsReady base (site.node :: positions)) from
    (sections.assume body).imp fun _ ready known => ready known known
  intro known
  obtain ⟨here, outer, closes, below, plain, belongs⟩ := ready known
  let index := Name.ofNode .projection site.node (some "i")
  have indexWord : IsIdentifier index.text := Name.isIdentifier_ofNode _ _ (by decide)
  have indexKnown := Names.has_declared indexWord [] (here :: outer)
  have row := Batch.isPlain_row (plain.mono (Names.below_enter _ _)) indexKnown
  refine .of_bind fun types => (Expr.gives_isPlain_lowerEach checked row expressions).bind
    fun values valuesPlain => .ok fun known => ?_
  -- the arrays are declared at the top, so that they are still seen behind the loop
  have arrays := has_projectionArrays (Sections.isVisible_append.1 known).1
  refine ⟨here, outer, closes.append (.run (.block ((Opens.upTo indexWord
    plain.length).withDirective ?_) (reads_assign ?_ valuesPlain))), below,
    ⟨?_, ?_, plain.length, nofun⟩, ?_⟩
  · intro code found
    split at found
    · obtain rfl := Option.some.inj found
      exact (Fits.start _).isPlain rfl
    · cases found
  · intro column member
    obtain ⟨array, isArray, rfl⟩ := List.mem_map.1 member
    exact ((isPlain_variable ((arrays array isArray).mono below)).enter [index]).element
      (isPlain_variable indexKnown)
  · intro column member
    obtain ⟨array, isArray, rfl⟩ := List.mem_map.1 member
    exact isPlain_variable ((arrays array isArray).mono below)
  · intro column member
    obtain ⟨array, isArray, rfl⟩ := List.mem_map.1 member
    exact nofun
  · exact fun name member => (belongs name member).imp fun node found =>
      ⟨List.mem_cons_of_mem _ found.1, found.2⟩

/-- The rows of the left input are stored, and its scopes are closed, before the rows of the right
input are looked up in a loop. -/
theorem gives_isReady_join {join : Join} (stored : join.key < join.stored.length)
    {leftPositions : List Nat} (leftReady : left.IsReady base leftPositions)
    (rightReady : right.IsReady base positions) (schema : Schema)
    (width : left.output.columns.length = join.stored.length) (rightKey : UInt32) :
    Gives (left.join right checked join schema rightKey) (IsReady base [join.node]) := by
  refine Sections.IsVisible.assume gives_sections_join fun known => ?_
  obtain ⟨known, rightKnown⟩ := Sections.isVisible_append.1 known
  obtain ⟨known, outputsKnown⟩ := Sections.isVisible_append.1 known
  obtain ⟨ownKnown, leftKnown⟩ := Sections.isVisible_append.1 known
  have visible := Join.isVisible_of_names ownKnown
  have buffered := Join.isBuffered_of_names outputsKnown
  obtain ⟨leftHere, leftOuter, leftCloses, leftBelow, leftPlain, -⟩ := leftReady leftKnown
  obtain ⟨here, outer, closes, below, plain, -⟩ := rightReady rightKnown
  -- the left side is closed before the right one is opened
  have builds := (leftCloses _ (Join.reads_storeBatch leftPlain (visible.mono leftBelow)
    width).stays).append (Join.reads_buildIndex visible stored)
  refine (Join.gives_leads_probeBatch checked plain (visible.mono below) stored
    (buffered.mono below) rightKey).bind fun probed known => .ok ?_
  obtain ⟨leads, probedPlain⟩ := known
  refine ⟨_, _, .before builds (closes.append leads), below.trans (Names.below_enter _ _),
    probedPlain, fun name member => ⟨join.node, List.mem_singleton_self _, ?_⟩⟩
  rcases List.mem_pair.1 member with rfl | rfl <;> rfl

variable {groups : Groups}

/-- The groups are read when the scopes of the input are closed, so that only the top is seen
there. -/
theorem gives_isReady_group (ready : input.IsReady base positions)
    (grouped : groups.isGrouped = true) (groupBy : List UInt32) :
    Gives (input.group checked groups groupBy) (IsReady base [groups.node]) := by
  refine Sections.IsVisible.assume gives_sections_group fun known => ?_
  obtain ⟨known, inputKnown⟩ := Sections.isVisible_append.1 known
  obtain ⟨ownKnown, groupIdsKnown⟩ := Sections.isVisible_append.1 known
  obtain ⟨here, outer, closes, below, plain, -⟩ := ready inputKnown
  have recordKnown := (Groups.isVisible_of_names ownKnown).record grouped
  have groupIds := groupIdsKnown _ (List.mem_singleton_self _)
  refine (Groups.gives_reads_gatherBatch checked plain (recordKnown.mono below)
    (groupIds.mono below) groupBy).bind fun taken reads => .ok ?_
  obtain ⟨slices, slicePlain⟩ := Groups.closes_slices recordKnown
  refine ⟨_, _, .before (closes _ reads.stays) slices, Names.below_enter _ _, slicePlain,
    fun name member => ⟨groups.node, List.mem_singleton_self _, ?_⟩⟩
  rcases List.mem_pair.1 member with rfl | rfl <;> rfl

/-- A batch is taken into an accumulator. -/
theorem gives_reads_accumulate {scopes : Names} {batch : Batch} (plain : batch.IsPlain scopes)
    (simd : Bool) (aggregate : Aggregate) (type : DataType) {accumulator index : Name}
    (known : scopes.Has accumulator) (word : IsIdentifier index.text) :
    Gives (accumulate batch simd aggregate type accumulator index) fun statement =>
      Reads [statement] scopes scopes := by
  have accumulatorPlain := isPlain_variable known
  have row := Batch.isPlain_row (plain.mono (scopes.below_enter [index]))
    (Names.has_declared word [] scopes)
  -- every aggregate but the count looks at the rows one by one
  have looped : Gives (do
      let update ← Groups.accumulate aggregate accumulator (batch.row index)
      let directive : Option Code :=
        if simd ∧ batch.isDense ∧ aggregate.isSum ∧ type = .float then
          some ("#pragma omp simd reduction(+:" ++ accumulator ++ ")")
        else none
      .ok (.block ((Head.upTo index batch.length).withDirective directive) update) :
        Except LoweringError Statement) fun statement => Reads [statement] scopes scopes := by
    refine (Groups.gives_reads_accumulate row aggregate (accumulatorPlain.enter [index])).bind
      fun update reads => .ok (.block ((Opens.upTo word plain.length).withDirective ?_) reads)
    intro code found
    split at found
    · obtain rfl := Option.some.inj found
      exact (Fits.start _ |>.code accumulatorPlain |>.text _).isPlain rfl
    · cases found
  cases aggregate with
  | count => exact .ok (.line ((Fits.hole accumulatorPlain |>.text _ |>.code plain.length
      |>.text _).isPlain rfl))
  | sum | min | max => exact looped

/-- A batch is taken into the summary of all rows. -/
theorem gives_reads_summariseBatch {scopes : Names} {batch : Batch} (plain : batch.IsPlain scopes)
    (simd : Bool) (visible : groups.IsVisible scopes) (ungrouped : groups.isGrouped = false) :
    Gives (groups.summariseBatch simd batch) fun taken => Reads taken scopes scopes := by
  have indexWord : IsIdentifier (groups.named "i").text := groups.isIdentifier_named (by decide)
  refine (Gives.mapM (S := fun update => Reads [update] scopes scopes) ?_).bind
    fun updates readsUpdates => .ok ?_
  · rintro ⟨⟨aggregate, type⟩, j⟩ member
    exact gives_reads_accumulate plain simd aggregate type
      (visible.accumulator ungrouped j (lt_of_mem_zipIdx member)) indexWord
  -- rows are only counted where an extreme could have none
  have counted : Reads (if groups.countsRows then
      [.line (groups.named "rows" ++ " += (int64_t)" ++ batch.length ++ ";")] else [])
      scopes scopes := by
    split
    · rename_i counts
      have rows := isPlain_variable (visible.rows counts)
      exact .line ((Fits.hole rows |>.text _ |>.code plain.length |>.text _).isPlain rfl)
    · exact .nil
  exact counted.append (.all readsUpdates)

/-- The totals are stored in a block of their own, behind the scopes of the input. -/
theorem gives_isReady_summarise (simd : Bool) (ready : input.IsReady base positions)
    (ungrouped : groups.isGrouped = false) :
    Gives (input.summarise simd groups) (IsReady base [groups.node]) := by
  refine Sections.IsVisible.assume gives_sections_summarise fun known => ?_
  obtain ⟨ownKnown, inputKnown⟩ := Sections.isVisible_append.1 known
  obtain ⟨here, outer, closes, below, plain, -⟩ := ready inputKnown
  have visible := Groups.isVisible_of_names ownKnown
  refine (gives_reads_summariseBatch plain simd (visible.mono below) ungrouped).bind
    fun taken reads => .ok ?_
  refine ⟨_, [base], .before (closes _ reads.stays) ((Closes.enter .bare).append
    (.runAll (Groups.reads_storeTotals visible ungrouped))), Names.below_enter _ _,
    groups.isPlain_totalBatch _, fun name member => ?_⟩
  obtain ⟨array, found, rfl⟩ := List.mem_map.1 (List.mem_reverse.1 member)
  exact ⟨groups.node, List.mem_singleton_self _,
    (Groups.isPlain_of_mem_totalArrays visible ungrouped found).2.1⟩

/-- What belongs to some nodes belongs to more. -/
theorem IsReady.mono {positions' : List Nat} {pipeline : BatchPipeline}
    (ready : pipeline.IsReady base positions) (wider : positions ⊆ positions') :
    pipeline.IsReady base positions' := by
  intro known
  obtain ⟨here, outer, closes, below, plain, belongs⟩ := ready known
  refine ⟨here, outer, closes, below, plain, fun name member => ?_⟩
  obtain ⟨node, member, found⟩ := belongs name member
  exact ⟨node, wider member, found⟩

end BatchPipeline

/-- The pipeline of a tree sees the variables at the top of the program if these are all that its
operators need. -/
theorem PlanTree.gives_isReady_batches (checked simd : Bool) {base : List Name} {tree : PlanTree}
    (typed : tree.WellTyped) (distinct : tree.positions.Nodup)
    (tables : ∀ node ∈ tree.tables, Names.Has [base] (Table.record node)) :
    Gives (tree.batches checked simd) (BatchPipeline.IsReady base tree.positions) := by
  induction tree with
  | scan site table columns =>
    exact .ok fun _ => BatchPipeline.isScoped_scan (tables _ (List.mem_singleton_self _)) columns
  | filter site predicate input ih =>
    -- the count of the filter is new in its scope since no other operator has its node
    obtain ⟨new, distinct⟩ := List.nodup_cons.1 distinct
    exact (ih typed.1 distinct tables).bind fun pipeline ready =>
      BatchPipeline.gives_isReady_filter simd ready new predicate
  | project site expressions input ih =>
    exact (ih typed.1 (List.nodup_cons.1 distinct).2 tables).bind fun pipeline ready =>
      BatchPipeline.gives_isReady_project simd ready site input.schema expressions
  | join site leftKey rightKey left right ihLeft ihRight =>
    obtain ⟨leftTyped, rightTyped, -, -⟩ := typed
    obtain ⟨leftTables, rightTables⟩ := List.forall_mem_append.1 tables
    obtain ⟨distinctLeft, distinctRight, -⟩ :=
      List.nodup_append'.1 (List.nodup_cons.1 distinct).2
    refine (Join.gives_of site.node left.schema leftKey).bind fun join known => ?_
    obtain ⟨sameNode, sameStored, stored⟩ := known
    have positions : [join.node] ⊆ (PlanTree.join site leftKey rightKey left right).positions :=
      sameNode ▸ List.cons_subset_cons _ (List.nil_subset _)
    refine ((yields_batches checked simd leftTyped).and
      (ihLeft leftTyped distinctLeft leftTables)).gives.bind fun leftPipeline known => ?_
    obtain ⟨types, leftReady⟩ := known
    -- the left batches have as many columns as the join, since the tree is well typed
    have width : leftPipeline.output.columns.length = join.stored.length := by
      rw [sameStored, ← types, BatchPipeline.types, List.length_map]
    exact (ihRight rightTyped distinctRight rightTables).bind fun rightPipeline rightReady =>
      (BatchPipeline.gives_isReady_join stored leftReady rightReady site.schema width
        rightKey).imp fun _ ready => ready.mono positions
  | aggregate site groupBy aggregates input ih =>
    refine (Groups.gives_of site.node input.schema groupBy aggregates).bind fun groups known =>
      (ih typed.1 (List.nodup_cons.1 distinct).2 tables).bind fun pipeline ready => ?_
    have positions : [groups.node] ⊆ (aggregate site groupBy aggregates input).positions := by
      rw [known.1]
      exact List.cons_subset_cons _ (List.nil_subset _)
    split
    · rename_i grouped
      exact (BatchPipeline.gives_isReady_group ready grouped groupBy).imp
        fun _ ready => ready.mono positions
    · rename_i ungrouped
      exact (BatchPipeline.gives_isReady_summarise simd ready (Bool.not_eq_true _ ▸ ungrouped)).imp
        fun _ ready => ready.mono positions

namespace Plan

variable (plan : Plan)

/-- The statements of a plan leave the scope of the variables at the top as it is. -/
theorem gives_reads_lowerVectorised (checked countOnly simd : Bool) (base : List Name) :
    Gives (plan.lowerVectorised checked countOnly simd) fun lowered =>
      lowered.1.IsVisible base → Reads lowered.2 [base] [base] := by
  have tables : Gives (plan.lowerVectorised checked countOnly simd) fun lowered =>
      lowered.1.IsVisible base → plan.tableSections.IsVisible base :=
    .of_bind fun pipeline => .ok fun known =>
      (Sections.isVisible_append.1 (Sections.isVisible_append.1 known).1).1
  -- the tables have to be known before the operators are gone through
  suffices body : plan.tableSections.IsVisible base →
      Gives (plan.lowerVectorised checked countOnly simd) fun lowered =>
        lowered.1.IsVisible base → Reads lowered.2 [base] [base] from
    (tables.assume body).imp fun _ reads known => reads known known
  intro tablesKnown
  refine (PlanTree.gives_isReady_batches checked simd plan.wellTyped_tree
    plan.nodup_positions_tree (plan.has_record tablesKnown)).bind
      fun pipeline ready => .ok fun known => ?_
  obtain ⟨here, outer, closes, below, plain, -⟩ := ready (Sections.isVisible_append.1 known).2
  refine closes _ (((reads_check checked).append ?_).stays)
  split
  · exact .line ((Fits.start _ |>.code plain.length |>.text _).isPlain rfl)
  · have word : IsIdentifier Name.resultRow.text := by decide
    have index := Names.has_declared word [] (here :: outer)
    have row := Batch.isPlain_row (plain.mono (Names.below_enter _ _)) index
    exact Batch.reads_loop plain word (RowPrinter.reads_print (List.forall_mem_map.2 row))

end Plan

end PlanCompiler
