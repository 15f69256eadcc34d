import PlanCompiler.Lowering.Batch
import PlanCompiler.Lowering.Scalar
import PlanCompiler.Proofs.Lowering.Sections.Basic
import PlanCompiler.Proofs.Outcome

/-!
# What operators declare

Every operator declares variables of its own node and releases exactly the pointers among them: a
join its columns and its index, an aggregation its hash table or its accumulators, and a table the
record of its columns.

## Main results

* `Join.isTidy_sections`, `Join.isTidy_outputSections`, `Groups.isTidy_sections`: operators;
* `Table.isTidy_sections`, `Plan.isTidy_tableSections`: the tables that are loaded;
* `RowPipeline.gives_sections_join`, `BatchPipeline.gives_sections_join` and so on: an operator puts
  its own sections in front of those of its input.
-/

namespace PlanCompiler

open Code

/-- Every type is represented by an element type of buffers. -/
theorem DataType.mem_elementTypes (type : DataType) :
    type.representation ∈ "const char *" :: Declaration.scalarTypes := by
  cases type <;> decide

/-- All types but texts are represented by scalar types. -/
theorem DataType.mem_scalarTypes {type : DataType} (noText : type ≠ .text) :
    type.representation ∈ Declaration.scalarTypes := by
  cases type <;> first | decide | exact absurd rfl noText

/-- Every type is represented by a type of fields. -/
theorem DataType.mem_fieldTypes (type : DataType) :
    type.representation ∈ "char" :: "const char *" :: Declaration.scalarTypes :=
  List.mem_cons_of_mem _ type.mem_elementTypes

/-- The least value of a type is one of the initial values. -/
theorem DataType.least_mem_initialTexts (type : DataType) :
    type.least ∈ Declaration.initialTexts := by
  cases type <;> decide

/-- The greatest value of a type is one of the initial values. -/
theorem DataType.greatest_mem_initialTexts (type : DataType) :
    type.greatest ∈ Declaration.initialTexts := by
  cases type <;> decide

/-- A number behind an identifier makes an identifier. -/
theorem isIdentifier_numbered {letter : String} (word : IsIdentifier letter) (k : Nat) :
    IsIdentifier (letter ++ toString k) :=
  word.append (isIdentifier_toString k)

/-- The node of an operator other than a scan that a name belongs to. -/
def Name.operator? : Name → Option Nat
  | .ofNode .table .. => none
  | .ofNode _ node _ | .groupsType node => some node
  | _ => none

/-- A part of a node that is no table belongs to that operator. -/
theorem Name.IsPart.operator? {owner : Owner} {node : Nat} {parts : List String} {c : Char}
    {name : Name} (isPart : name.IsPart owner node parts c) (other : owner ≠ .table) :
    name.operator? = some node := by
  obtain ⟨part, rfl, -⟩ := isPart
  cases owner <;> first | rfl | exact absurd rfl other

/-! ## Joins -/

namespace Join

variable (join : Join) (schema : Schema)

/-- A join declares only plain variables and buffers. -/
theorem isSimple_sections : join.sections.IsSimple := by
  refine .append (.append (.append (.append (.append ?_ ?_) ?_) (.concat ?_)) ?_) ?_
  · exact .plain (by decide) (by decide) (by decide)
  · exact .plain (by decide) (by decide) (by decide)
  · exact .plain (by decide) (by decide) (by decide)
  · intro sections member
    obtain ⟨⟨type, k⟩, -, rfl⟩ := List.mem_map.1 member
    exact .buffer (isIdentifier_numbered (by decide) k) type.mem_elementTypes
  · exact .buffer (by decide) (by decide)
  · exact .buffer (by decide) (by decide)

/-- What a join declares for its build side, in order. -/
theorem names_sections :
    join.sections.names = [join.named "rows", join.named "cap", join.named "mask"] ++
      Name.numbered .join join.node "c" join.stored.length ++
        [join.named "heads", join.named "next"] := by
  simp only [sections, Sections.names_append]
  rw [Sections.names_concat_numbered fun _ _ => rfl]
  simp
  rfl

/-- The output of a join in batches consists of plain variables and buffers. -/
theorem isSimple_outputSections : (join.outputSections schema).IsSimple := by
  refine .append (.append ?_ ?_) (.concat ?_)
  · exact .plain (by decide) (by decide) (by decide)
  · exact .plain (by decide) (by decide) (by decide)
  · intro sections member
    obtain ⟨⟨name, type⟩, output, rfl⟩ := List.mem_map.1 member
    obtain ⟨⟨type, k⟩, -, same⟩ := List.mem_map.1 output
    obtain ⟨rfl, rfl⟩ := Prod.mk.inj same
    exact .buffer (isIdentifier_numbered (by decide) k) type.mem_elementTypes

/-- What a join declares for its output in batches, in order. -/
theorem names_outputSections :
    (join.outputSections schema).names = [join.named "on", join.named "ocap"] ++
      Name.numbered .join join.node "o" schema.length := by
  simp only [outputSections, outputs, List.map_map, Sections.names_append]
  rw [Sections.names_concat_numbered fun _ _ => rfl]
  simp
  rfl

/-- The stored columns of a join are those of its left input, and its key is one of them. -/
theorem gives_of (node : Nat) (left : Schema) (leftKey : UInt32) :
    Gives (Join.of node left leftKey) fun join =>
      join.node = node ∧ join.stored = left ∧ join.key < join.stored.length := by
  rw [Join.of]
  split
  · rename_i keyType found
    exact .ok ⟨rfl, rfl, (List.getElem?_eq_some_iff.1 found).1⟩
  · exact .error _

/-- What a join declares for its build side is tidy. -/
theorem isTidy_sections : join.sections.IsTidy
    (Name.IsPart .join join.node ["rows", "cap", "mask", "heads", "next"] 'c') :=
  @Sections.IsSimple.isTidy_parts _ _ _ (isSimple_sections join) "c" _
    ["rows", "cap", "mask"] ["heads", "next"] _ rfl (names_sections join) (by decide) (by decide)

/-- What a join declares for its output in batches is tidy. -/
theorem isTidy_outputSections : (join.outputSections schema).IsTidy
    (Name.IsPart .join join.node ["on", "ocap"] 'o') :=
  @Sections.IsSimple.isTidy_parts _ _ _ (isSimple_outputSections join schema) "o" _
    ["on", "ocap"] [] _ rfl ((names_outputSections join schema).trans (List.append_nil _).symm)
    (by decide) (by decide)

end Join

/-! ## Aggregations -/

/-- What an aggregate computes is no text. -/
theorem Aggregate.gives_noText (aggregate : Aggregate) (input : Schema) :
    Gives (aggregate.resultType input) (· ≠ .text) := by
  cases aggregate with
  | count => exact .ok nofun
  | sum column =>
    refine .of_bind fun type => ?_
    split
    -- a sum is of numbers, and a text is none
    · rename_i numeric
      refine .ok ?_
      rintro rfl
      cases numeric
    · exact .error _
  | min column | max column =>
    refine .of_bind fun type => ?_
    split
    · exact .error _
    · rename_i ordered
      exact .ok fun text => ordered (.inr text)

namespace Groups

/-- The accumulators of an aggregation are no pointers. -/
def HasScalars (groups : Groups) : Prop := ∀ entry ∈ groups.aggregates, entry.2 ≠ .text

/-- The groups of a node belong to it, and all their accumulators are scalars. -/
theorem gives_of (node : Nat) (input : Schema) (groupBy : List UInt32)
    (aggregates : List Aggregate) :
    Gives (Groups.of node input groupBy aggregates) fun groups =>
      groups.node = node ∧ groups.HasScalars := by
  refine .of_bind fun keys => ?_
  refine (Gives.mapM fun aggregate _ => ?_).bind fun entries scalars => .ok ⟨rfl, scalars⟩
  refine Gives.bind (Q := (· ≠ .text)) ?_ fun type noText => .ok noText
  exact fun type found => aggregate.gives_noText input type (mapError_eq_ok_iff.1 found)

variable (groups : Groups)

/-- The variable and the type of the hash table. -/
def IsTable (name : Name) : Prop := name = groups.record ∨ name = .groupsType groups.node

/-- The buffers of a group table are its slots and its columns. -/
theorem bufferMembers_definitions :
    Declaration.bufferMembers
        [groups.recordType, groups.hashFunction, groups.growFunction, groups.findFunction]
        (.groupsType groups.node) = "slots" :: groups.columnNames := by
  have keys := Declaration.map_name_filter_isBuffer groups.keys.zipIdx
    (fun entry => entry.1.representation) fun entry => s!"g{entry.2}"
  have slots := Declaration.map_name_filter_isBuffer groups.aggregates.zipIdx
    (fun entry => entry.1.2.representation) fun entry => s!"v{entry.2}"
  refine (Declaration.bufferMembers_cons_record ..).trans ((List.append_nil _).trans ?_)
  rw [List.filter_append, List.filter_append, List.map_append, List.map_append]
  exact congrArg₂ _ (congrArg₂ _ rfl keys) slots

/-- A key's column is a member's name. -/
theorem isMember_key (k : Nat) : IsMember s!"g{k}" :=
  isMember_append_toString rfl rfl rfl k

/-- A value's column is a member's name. -/
theorem isMember_slot (j : Nat) : IsMember s!"v{j}" :=
  isMember_append_toString rfl rfl rfl j

/-- The record type of a group table is regular. -/
theorem isRegular_recordType : groups.recordType.IsRegular := by
  -- two sizes and the slots, then the keys, then the accumulators
  refine ⟨rfl, List.forall_mem_append.2 ⟨List.forall_mem_append.2 ⟨?_, ?_⟩, ?_⟩⟩
  · refine List.forall_mem_cons.2 ⟨Member.isRegular_size (by decide), List.forall_mem_cons.2
      ⟨Member.isRegular_size (by decide), List.forall_mem_singleton.2 ?_⟩⟩
    exact Member.isRegular_buffer (by decide) (by decide)
  · intro member found
    obtain ⟨⟨type, k⟩, -, rfl⟩ := List.mem_map.1 found
    exact Member.isRegular_buffer type.mem_fieldTypes (isMember_key k)
  · intro member found
    obtain ⟨⟨⟨aggregate, type⟩, j⟩, -, rfl⟩ := List.mem_map.1 found
    exact Member.isRegular_buffer type.mem_fieldTypes (isMember_slot j)

/-- The slots and the columns of a group table have distinct names. -/
theorem nodup_columns : ("slots" :: groups.columnNames).Nodup := by
  refine List.nodup_cons.2 ⟨fun member => ?_, List.Nodup.append ?_ ?_ ?_⟩
  · rcases List.mem_append.1 member with member | member
    · cases numberedBy_of_mem_map "g" rfl Prod.snd (fun _ => rfl) _ member
    · cases numberedBy_of_mem_map "v" rfl Prod.snd (fun _ => rfl) _ member
  · rw [map_zipIdx_eq_map_range fun _ _ => rfl]
    exact nodup_map_numbered List.nodup_range
  · rw [map_zipIdx_eq_map_range fun _ _ => rfl]
    exact nodup_map_numbered List.nodup_range
  · exact disjoint_of_numberedBy (numberedBy_of_mem_map "g" rfl Prod.snd fun _ => rfl)
      (numberedBy_of_mem_map "v" rfl Prod.snd fun _ => rfl) (by decide)

/-- With group columns, the hash table is declared, and its columns are released. -/
theorem isTidy_sections_grouped (grouped : groups.isGrouped = true) :
    groups.sections.IsTidy groups.IsTable := by
  have members := groups.bufferMembers_definitions
  rw [sections, if_pos grouped]
  constructor
  case regular =>
    exact List.forall_mem_singleton.2 ⟨⟨rfl, Name.isIdentifier_ofNode_none _ _⟩, rfl⟩
  case distinct => exact List.nodup_singleton _
  case regularDefinitions =>
    -- every function shows in the first word of its heading or of the comment above it
    have inline : (Lexeme.scan .outside "static inline uint64_t".toList).head? =
        some (.word "static".toList) := by decide +kernel
    have plain : (Lexeme.scan .outside "static int".toList).head? =
        some (.word "static".toList) := by decide +kernel
    have commented : (Lexeme.scan .outside
        "/* Returns the index of the group, inserting it when absent, or SIZE_MAX when out of memory. */".toList).head? =
        some (.sign '/') := by decide +kernel
    refine List.forall_mem_cons.2 ⟨groups.isRegular_recordType, List.forall_mem_cons.2
      ⟨⟨_, inline, by decide⟩, List.forall_mem_cons.2 ⟨⟨_, plain, by decide⟩,
        List.forall_mem_singleton.2 ⟨_, commented, by decide⟩⟩⟩⟩
  case defined =>
    rintro type name member
    rw [(Declaration.record.inj (List.mem_singleton.1 member)).1]
    exact ⟨_, List.mem_cons_self⟩
  case distinctMembers =>
    rintro type name member
    rw [(Declaration.record.inj (List.mem_singleton.1 member)).1, members]
    exact groups.nodup_columns
  case released =>
    have pointers := congrArg (List.map fun member => Code.member groups.record member) members
    exact ((List.flatMap_singleton _ _).trans pointers).symm
  case ownsNames => exact List.forall_mem_singleton.2 (.inl rfl)
  case ownsTypes =>
    rintro type name member
    exact .inr (Declaration.record.inj (List.mem_singleton.1 member)).1
  case ownsRecords =>
    rintro type members member
    simp only [List.mem_cons, List.not_mem_nil, or_false, recordType, hashFunction, growFunction,
      findFunction, Definition.record.injEq, reduceCtorEq] at member
    exact .inr member.1

variable {groups}

/-- Without group columns, the accumulators are declared, and the number of rows. -/
theorem names_sections_ungrouped (ungrouped : groups.isGrouped = false) :
    groups.sections.names = (if groups.countsRows then ["rows"] else []).map groups.named ++
      Name.numbered .aggregation groups.node "v" groups.aggregates.length := by
  rw [sections, if_neg (by simp [ungrouped]), Sections.names_append,
    Sections.names_concat_numbered fun _ _ => rfl]
  split <;> rfl

/-- An aggregation without groups declares only plain variables. -/
theorem isSimple_sections (ungrouped : groups.isGrouped = false) (scalars : groups.HasScalars) :
    groups.sections.IsSimple := by
  rw [sections, if_neg (by simp [ungrouped])]
  refine .append ?_ (.concat ?_)
  · split
    · exact .plain (by decide) (by decide) (by decide)
    · exact .empty
  · intro sections member
    obtain ⟨⟨⟨aggregate, type⟩, j⟩, entry, rfl⟩ := List.mem_map.1 member
    have noText := scalars _ (List.fst_mem_of_mem_zipIdx entry)
    refine .plain (isIdentifier_numbered (by decide) j) (DataType.mem_scalarTypes noText) ?_
    cases aggregate with
    | sum | count => exact List.mem_cons_self
    | min => exact type.greatest_mem_initialTexts
    | max => exact type.least_mem_initialTexts

/-- What an aggregation without groups declares is tidy. -/
theorem isTidy_sections_ungrouped (ungrouped : groups.isGrouped = false)
    (scalars : groups.HasScalars) :
    groups.sections.IsTidy (Name.IsPart .aggregation groups.node ["rows"] 'v') := by
  refine Sections.IsTidy.mono (@Sections.IsSimple.isTidy_parts _ _ _
    (isSimple_sections ungrouped scalars) "v" _ _ [] 'v' rfl
    ((names_sections_ungrouped ungrouped).trans (List.append_nil _).symm) ?_ ?_) ?_
  · split <;> decide
  · split <;> decide
  · rintro name ⟨part, rfl, found⟩
    refine ⟨part, rfl, found.imp_left fun member => ?_⟩
    split at member
    · exact member
    · cases member

variable (groups)

/-- What an aggregation declares is tidy. -/
theorem isTidy_sections (scalars : groups.HasScalars) :
    groups.sections.IsTidy (·.operator? = some groups.node) := by
  cases grouped : groups.isGrouped with
  | true =>
    refine (groups.isTidy_sections_grouped grouped).mono ?_
    rintro name (rfl | rfl) <;> rfl
  | false =>
    exact (isTidy_sections_ungrouped grouped scalars).mono
      fun name isPart => isPart.operator? nofun

end Groups

/-! ## Tables -/

/-- The node whose table a name belongs to. -/
def Name.scan? : Name → Option Nat
  | .ofNode .table node _ | .tableType node => some node
  | _ => none

namespace Table

variable (node : Nat) (columns : List ScanColumn)

/-- The buffers of a table are its columns, the ends of its texts, and the texts if there are any.
-/
theorem bufferMembers_definitions (table : String) :
    Declaration.bufferMembers [recordType node columns, loader node table columns]
        (.tableType node) =
      (placed columns).map (fun (_, k) => s!"c{k}") ++
        (textPositions columns).map (fun k => s!"o{k}") ++
          if textPositions columns = [] then [] else ["text"] := by
  have fields := Declaration.map_name_filter_isBuffer (placed columns)
    (fun entry => entry.1.type.representation) fun entry => s!"c{entry.2}"
  have offsets := Declaration.map_name_filter_isBuffer (textPositions columns)
    (fun _ => "size_t") fun k => s!"o{k}"
  refine (Declaration.bufferMembers_cons_record ..).trans ((List.append_nil _).trans ?_)
  rw [members, List.filter_append, List.filter_append, List.filter_append, List.map_append,
    List.map_append, List.map_append]
  refine congrArg₂ _ (congrArg₂ _ fields offsets) ?_
  split <;> rfl

/-- The record type of a table is regular. -/
theorem isRegular_recordType : (recordType node columns).IsRegular := by
  refine ⟨rfl, List.forall_mem_append.2 ⟨List.forall_mem_append.2 ⟨List.forall_mem_append.2
    ⟨?_, ?_⟩, ?_⟩, ?_⟩⟩
  · exact List.forall_mem_cons.2 ⟨Member.isRegular_size (by decide),
      List.forall_mem_singleton.2 (Member.isRegular_size (by decide))⟩
  · intro member found
    obtain ⟨⟨column, k⟩, -, rfl⟩ := List.mem_map.1 found
    exact Member.isRegular_buffer column.type.mem_fieldTypes
      (isMember_append_toString rfl rfl rfl k)
  · intro member found
    obtain ⟨k, -, rfl⟩ := List.mem_map.1 found
    exact Member.isRegular_buffer (by decide) (isMember_append_toString rfl rfl rfl k)
  · split
    · exact List.forall_mem_nil _
    · exact List.forall_mem_cons.2 ⟨Member.isRegular_buffer (by decide) (by decide),
        List.forall_mem_cons.2 ⟨Member.isRegular_size (by decide),
          List.forall_mem_singleton.2 (Member.isRegular_size (by decide))⟩⟩

/-- The positions of texts are distinct. -/
theorem nodup_textPositions : (textPositions columns).Nodup := by
  have positions : textPositions columns =
      ((placed columns).filter fun entry => entry.1.type = .text).map Prod.snd := by
    rw [textPositions, ← List.filterMap_eq_filter, List.map_filterMap]
    refine List.filterMap_congr fun entry _ => ?_
    by_cases text : entry.1.type = .text <;> simp [text, Option.guard]
  rw [positions]
  refine List.Nodup.sublist (List.filter_sublist.map _) ?_
  rw [placed, List.zipIdx_map_snd]
  exact List.nodup_range'

/-- The buffers of a table have distinct names. -/
theorem nodup_columns :
    ((placed columns).map (fun ((_, k) : ScanColumn × Nat) => s!"c{k}") ++
      (textPositions columns).map (fun k => s!"o{k}") ++
        if textPositions columns = [] then [] else ["text"]).Nodup := by
  have offsets : ∀ text ∈ (textPositions columns).map (fun k => s!"o{k}"),
      numberedBy text = some 'o' :=
    numberedBy_of_mem_map "o" rfl id fun _ => rfl
  have arena : ∀ text ∈ if textPositions columns = [] then [] else ["text"],
      numberedBy text = none := by
    intro text member
    split at member
    · cases member
    · rw [List.mem_singleton.1 member]
      decide
  -- columns and offsets are numbered behind different letters; the arena has no number
  refine List.Nodup.append (List.Nodup.append ?_ ?_ ?_) ?_ ?_
  · rw [placed, map_zipIdx_eq_map_range fun _ _ => rfl]
    exact nodup_map_numbered List.nodup_range
  · exact nodup_map_numbered (nodup_textPositions columns)
  · exact disjoint_of_numberedBy (numberedBy_of_mem_map "c" rfl Prod.snd fun _ => rfl) offsets
      (by decide)
  · split
    · exact List.nodup_nil
    · exact List.nodup_singleton _
  · exact List.disjoint_append_left.2
      ⟨disjoint_of_numberedBy (numberedBy_of_mem_map "c" rfl Prod.snd fun _ => rfl) arena nofun,
        disjoint_of_numberedBy offsets arena nofun⟩

/-- What a table declares is tidy. -/
theorem isTidy_sections (table : String) :
    (sections node table columns).IsTidy (·.scan? = some node) := by
  -- a scan declares a single record, and defines its type and the function that loads it
  have members := bufferMembers_definitions node columns table
  constructor
  case regular =>
    exact List.forall_mem_singleton.2 ⟨⟨rfl, Name.isIdentifier_ofNode_none _ _⟩, rfl⟩
  case distinct => exact List.nodup_singleton _
  case regularDefinitions =>
    have plain : (Lexeme.scan .outside "static int".toList).head? =
        some (.word "static".toList) := by decide +kernel
    exact List.forall_mem_cons.2 ⟨isRegular_recordType node columns,
      List.forall_mem_singleton.2 ⟨_, plain, by decide⟩⟩
  case defined =>
    rintro type name member
    rw [(Declaration.record.inj (List.mem_singleton.1 member)).1]
    exact ⟨_, List.mem_cons_self⟩
  case distinctMembers =>
    rintro type name member
    rw [(Declaration.record.inj (List.mem_singleton.1 member)).1]
    exact members ▸ nodup_columns columns
  case released =>
    have pointers := congrArg (List.map fun member => Code.member (record node) member) members
    refine (((List.flatMap_singleton _ _).trans pointers).trans ?_).symm
    rw [List.map_append, List.map_append, List.map_map, List.map_map]
    refine congrArg₂ _ rfl ?_
    split <;> rfl
  case ownsNames => exact List.forall_mem_singleton.2 rfl
  case ownsTypes =>
    rintro type name member
    rw [(Declaration.record.inj (List.mem_singleton.1 member)).1]
    rfl
  case ownsRecords =>
    rintro type members member
    simp only [sections, recordType, loader, List.mem_cons, List.not_mem_nil, or_false,
      Definition.record.injEq, reduceCtorEq] at member
    rw [member.1]
    rfl

end Table

/-- The tables of a plan. -/
theorem Plan.isTidy_tableSections (plan : Plan) :
    plan.tableSections.IsTidy fun name => name.scan?.isSome := by
  have distinct : (plan.nodes.zipIdx.map Prod.snd).Nodup := by
    rw [List.zipIdx_map_snd]
    exact List.nodup_range'
  refine (@Sections.IsTidy.concat _ Name.scan? _ _ _ distinct fun entry _ => ?_).mono ?_
  · split
    · exact Table.isTidy_sections ..
    · exact .empty
  · rintro name ⟨entry, -, found⟩
    exact Option.isSome_of_eq_some found

/-! ## Sections of pipelines -/

section

variable {checked : Bool} {groups : Groups} {groupBy : List UInt32}

namespace RowPipeline

variable {input left right : RowPipeline} {join : Join}

/-- A filter declares nothing of its own. -/
theorem gives_sections_filter {predicate : Expr} :
    Gives (input.filter checked predicate) (·.sections = input.sections) :=
  .of_bind fun _ => .ok rfl

/-- A projection declares nothing of its own. -/
theorem gives_sections_project {site : Site} {expressions : List Expr} :
    Gives (input.project checked site expressions) (·.sections = input.sections) :=
  .of_bind fun _ => .ok rfl

/-- A join declares its build side in front of what its inputs declare. -/
theorem gives_sections_join {rightKey : UInt32} :
    Gives (left.join right checked join rightKey)
      (·.sections = join.sections ++ left.sections ++ right.sections) :=
  .of_bind fun _ => .ok rfl

/-- An aggregation needs the same for rows with groups and without. -/
theorem gives_sections_aggregate :
    Gives (if groups.isGrouped then input.group checked groups groupBy
        else input.summarise groups) (·.sections = groups.sections ++ input.sections) := by
  split <;> exact .of_bind fun _ => .ok rfl

end RowPipeline

namespace BatchPipeline

variable {simd : Bool} {input left right : BatchPipeline} {join : Join} {site : Site}
  {schema : Schema}

/-- A filter of batches declares its selection in front of what its input declares. -/
theorem gives_sections_filter {predicate : Expr} :
    Gives (input.filter checked simd site predicate)
      (·.sections =
        .vector "uint32_t" (.ofNode .filter site.node (some "sel")) ++ input.sections) :=
  .of_bind fun _ => .ok rfl

/-- The arrays of a join for its rows stand between the sections of the two inputs. -/
theorem gives_sections_join {rightKey : UInt32} :
    Gives (left.join right checked join schema rightKey)
      (·.sections =
        join.sections ++ left.sections ++ join.outputSections schema ++ right.sections) :=
  .of_bind fun _ => .ok (Sections.append_assoc _ _ _).symm

/-- An aggregation of batches with groups declares its table and the groups' positions. -/
theorem gives_sections_group :
    Gives (input.group checked groups groupBy)
      (·.sections =
        groups.sections ++ .vector "size_t" (groups.named "gid") ++ input.sections) :=
  .of_bind fun _ => .ok rfl

/-- An aggregation of batches without groups declares its accumulators. -/
theorem gives_sections_summarise :
    Gives (input.summarise simd groups) (·.sections = groups.sections ++ input.sections) :=
  .of_bind fun _ => .ok rfl

end BatchPipeline

end

end PlanCompiler
