import PlanCompiler.Proofs.Code.Vocabulary.Definitions
import PlanCompiler.Proofs.Lowering.CallSites.Operators
import PlanCompiler.Proofs.Lowering.Vocabulary.Expr
import PlanCompiler.Proofs.Program.Definitions

/-!
# Operators within a vocabulary

The code that tables, joins and aggregations need around their rows calls helper functions and the
functions that the operator itself defines. Loaders and row printers are functions on their own; of
the functions of an aggregation, each one only calls those in front of it.

## Main definitions

* `Sections.IsWithin`: the parts of some sections that stand in the main function.

## Main results

* `Table.isWithin_loader`, `RowPrinter.isWithin_definition`: functions that stand alone;
* `Groups.inOrder_definitions`: the functions of an aggregation;
* `Table.isWithin_sections`, `Join.isWithin_sections`, `Groups.isWithin_sections`: what operators
  need in the main function.
-/

namespace PlanCompiler

variable {v : Vocabulary}

/-- A parameter of a function. -/
theorem DataType.isWithin_parameter (type : DataType) {parameter : String}
    (follows : Code.followsText parameter.toList = true)
    (within : (Piece.text parameter).IsWithin v) :
    ((type.representation : Code) ++ (parameter : Code)).IsWithin v :=
  (Code.isWithin_append_text String.ofList_toList follows).2
    ⟨by simp, Code.isWithin_text.2 within⟩

/-! ## Sections -/

/-- The parts of some sections that stand in the main function keep within a vocabulary. -/
structure Sections.IsWithin (v : Vocabulary) (sections : Sections) : Prop where
  declarations : AllOf (Code.IsWithin v) (sections.declarations.map fun declaration =>
    declaration.line.code)
  setup : AllOf (Statement.IsWithin v) sections.setup
  released : AllOf (Code.IsWithin v) sections.released

namespace Sections.IsWithin

variable {a b : Sections} {type : String} {name : Name}

/-- The empty sections keep within any vocabulary. -/
theorem empty : IsWithin v {} := ⟨.nil, .nil, .nil⟩

/-- Sections within a vocabulary are so in a row. -/
theorem append (first : a.IsWithin v) (second : b.IsWithin v) : (a ++ b).IsWithin v where
  declarations := by
    have both := AllOf.append_iff.2 ⟨first.declarations, second.declarations⟩
    rwa [← List.map_append] at both
  setup := AllOf.append_iff.2 ⟨first.setup, second.setup⟩
  released := AllOf.append_iff.2 ⟨first.released, second.released⟩

/-- Any number of sections within a vocabulary are so together. -/
theorem concat {all : List Sections} (each : ∀ sections ∈ all, sections.IsWithin v) :
    (Sections.concat all).IsWithin v := by
  induction all with
  | nil => exact .empty
  | cons first rest ih =>
    obtain ⟨firstWithin, others⟩ := List.forall_mem_cons.1 each
    exact firstWithin.append (ih others)

section

variable (typeWithin : (Piece.text type).IsWithin v) (nameWithin : name.IsWithin v)
include typeWithin nameWithin

/-- The section of a plain variable keeps within a vocabulary if its initial value does. -/
theorem plain {initial : Code} (initialWithin : initial.IsWithin v) :
    (Sections.plain type name initial).IsWithin v := by
  constructor <;> simp (disch := first | decide | exact rfl) [Sections.plain, Declaration.line,
    typeWithin, nameWithin, initialWithin]

/-- The section of a buffer keeps within any vocabulary. -/
theorem buffer : (Sections.buffer type name).IsWithin v := by
  constructor <;> simp (disch := first | decide | exact rfl) [Sections.buffer, Declaration.line,
    typeWithin, nameWithin]

/-- The section of a vector needs the word for the vector size. -/
theorem vector (has : v.words .vectorSize) : (Sections.vector type name).IsWithin v := by
  refine (buffer typeWithin nameWithin).append ?_
  constructor <;> simp (disch := first | decide | exact rfl) [nameWithin,
    Piece.isWithin_text_of_words _ has]

end

end Sections.IsWithin

/-! ## Tables and rows of the result -/

namespace Table

/-- The name of a table's variable keeps within any vocabulary. -/
@[simp]
theorem isWithin_record (node : Nat) : (record node).IsWithin v := trivial

/-- The record type of a table keeps within any vocabulary. -/
theorem isWithin_recordType (node : Nat) (columns : List ScanColumn) :
    (recordType node columns).IsWithin v := by
  have texts : AllOf (Member.IsWithin v) (if textPositions columns = [] then []
      else [.buffer "char" "text", .size "text_len", .size "text_cap"]) := by
    split <;> simp (disch := first | decide | exact rfl)
  refine ⟨trivial, ?_⟩
  simp (disch := first | decide | exact rfl | simp) [members, texts, Piece.isWithin_of_notMem_k]

section

variable (helpers : v.HasHelpers)
include helpers

/-- Reading one field of a row needs the helpers that all programs have. -/
theorem isWithin_readField (column : ScanColumn) (position : Nat) :
    (readField column position).IsWithin v := by
  rw [readField]
  split
  · simp (disch := first | decide | exact rfl | simp) [helpers _, Piece.isWithin_of_notMem_k]
  · cases column.type <;>
      simp (disch := first | decide | exact rfl | simp) [fieldReader, helpers _,
        Piece.isWithin_of_notMem_k]

/-- Reading a row needs the helpers that all programs have. -/
theorem isWithin_readRow (columns : List ScanColumn) :
    AllOf (Statement.IsWithin v) (readRow columns) := by
  simp (disch := first | decide | exact rfl | simp) [readRow, growRows, helpers _,
    isWithin_readField helpers, Piece.isWithin_of_notMem_k]

/-- The function that loads a table needs the helpers that all programs have. -/
theorem isWithin_loader (node : Nat) (table : String) (columns : List ScanColumn) :
    (loader node table columns).IsWithin v := by
  have body : AllOf (Statement.IsWithin (v.define [.loader node])) (load table columns) := by
    have helpers := helpers.define [.loader node]
    simp (disch := first | decide | exact rfl | simp) [load, isWithin_readRow helpers, helpers _,
      Piece.isWithin_of_notMem_k]
  refine ⟨List.forall_mem_nil _, ⟨?_, by decide⟩, rfl, fun functions => ?_,
    Statement.allWithin_codesOfAll body⟩
  all_goals simp (disch := first | decide | exact rfl)

end

/-- A table's sections need only the table's loader. -/
theorem isWithin_sections {node : Nat} (defined : .loader node ∈ v.functions) (table : String)
    (columns : List ScanColumn) : (sections node table columns).IsWithin v where
  declarations := by
    simp (disch := first | decide | exact rfl) [sections, Declaration.line]
  setup := by
    simp (disch := first | decide | exact rfl | simp) [sections, defined]
  released := by
    have texts : AllOf (Code.IsWithin v) (if textPositions columns = [] then []
        else [.member (record node) "text"]) :=
      .ite .nil (by simp (disch := first | decide | exact rfl))
    simp (disch := first | decide | exact rfl | simp) [sections, released, texts,
      Piece.isWithin_of_notMem_k]

end Table

namespace RowPrinter

/-- Printing a column needs the helpers that all programs have. -/
theorem isWithin_printColumn (helpers : v.HasHelpers) (type : DataType) {parameter : String}
    (within : (Piece.text parameter).IsWithin v) : (printColumn type parameter).IsWithin v := by
  cases type <;> simp (disch := first | decide | exact rfl) [printColumn, helpers _, within]

/-- The body of the row printer needs the helpers that all programs have. -/
theorem isWithin_body (helpers : v.HasHelpers) (schema : Schema) :
    AllOf (Statement.IsWithin v) (body schema) := by
  have separator (k : Nat) : AllOf (Statement.IsWithin v)
      (if k = 0 then [] else [.line "fputs(\", \", out);"]) := by
    split <;> simp (disch := first | decide | exact rfl)
  have parameter (k : Nat) : (Piece.text s!"v{k}").IsWithin v := by
    simp (disch := simp) [Piece.isWithin_of_notMem_k]
  refine AllOf.append_iff.2 ⟨AllOf.flatMap_iff.2 fun (type, k) _ => ?_, ?_⟩
  · exact AllOf.append_iff.2 ⟨separator k, AllOf.cons_iff.2
      ⟨Statement.isWithin_line.2 (isWithin_printColumn helpers type (parameter k)), .nil⟩⟩
  · simp (disch := first | decide | exact rfl)

/-- The definition of the row printer needs the helpers that all programs have. -/
theorem isWithin_definition (helpers : v.HasHelpers) (schema : Schema) :
    (definition schema).IsWithin v := by
  -- a parameter is its type and its name, with a blank at the seam
  have parameter (functions : List Name) (type : DataType) (k : Nat) :
      ((type.representation : Code) ++ (s!" v{k}" : Code)).IsWithin { v with functions } := by
    refine type.isWithin_parameter (Code.followsText_of_notMem ?_ (by simp)) ?_
    · simp [Lexeme.startsWord, Lexeme.isWordChar]
    · simp (disch := simp) [Piece.isWithin_of_notMem_k]
  refine ⟨List.forall_mem_nil _, ⟨?_, by decide⟩, rfl, fun functions =>
    AllOf.cons_iff.2 ⟨?_, AllOf.map_iff.2 fun entry _ => parameter functions entry.1 entry.2⟩,
    Statement.allWithin_codesOfAll (isWithin_body (helpers.define _) schema)⟩
  all_goals simp (disch := first | decide | exact rfl)

/-- Printing a row needs only the row printer. -/
theorem isWithin_print (defined : .printRow ∈ v.functions) {row : List Code}
    (within : AllOf (Code.IsWithin v) row) : (RowPrinter.print row).IsWithin v := by
  simp (disch := first | decide | exact rfl) [RowPrinter.print, defined, within]

end RowPrinter

/-! ## Joins -/

namespace Join

variable (join : Join)

/-- A variable of a join is within a vocabulary exactly if its part is an identifier. -/
@[simp]
theorem isWithin_named {part : String} : (join.named part).IsWithin v ↔ IsIdentifier part := .rfl

/-- The name of a stored column keeps within any vocabulary. -/
@[simp]
theorem isWithin_column (k : Nat) : (join.column k).IsWithin v :=
  IsIdentifier.append (by decide) (isIdentifier_toString k)

/-- Storing a row keeps within the row's vocabulary. -/
theorem isWithin_store {row : List Value} (within : AllOf (Value.IsWithin v) row) :
    AllOf (Statement.IsWithin v) (join.store row) := by
  have value : ∀ value k, (value, k) ∈ row.zipIdx → value.code.IsWithin v :=
    fun value k member => within.of_mem_zipIdx member
  simpa (disch := first | decide | exact rfl) [store] using value

/-- Building a join's index needs the helpers that all programs have. -/
theorem isWithin_buildIndex (helpers : v.HasHelpers) :
    AllOf (Statement.IsWithin v) join.buildIndex := by
  simp (disch := first | decide | exact rfl) [buildIndex, helpers _, Value.isWithin_hash helpers]

/-- Probing a join needs the helpers that all programs have. -/
theorem isWithin_probe (helpers : v.HasHelpers) (checked : Bool) {key : Value}
    (within : key.code.IsWithin v) : AllOf (Step.IsWithin v) (join.probe checked key) := by
  cases checked <;> simp (disch := first | decide | exact rfl) [probe, within,
    Value.isWithin_hash helpers]

/-- The columns that a probe finds keep within any vocabulary. -/
theorem isWithin_found : AllOf (Value.IsWithin v) join.found := by
  simp (disch := first | decide | exact rfl) [found]

/-- A join's sections keep within any vocabulary. -/
theorem isWithin_sections : join.sections.IsWithin v := by
  have size : (Piece.text "size_t").IsWithin v := by simp (disch := first | decide | exact rfl)
  have zero : (("0" : String) : Code).IsWithin v := by simp (disch := first | decide | exact rfl)
  have columns : (Sections.concat (join.stored.zipIdx.map fun entry =>
      .buffer entry.1.representation (join.column entry.2))).IsWithin v := by
    refine .concat (List.forall_mem_map.2 fun entry _ => ?_)
    exact .buffer entry.1.isWithin_representation (join.isWithin_column entry.2)
  have number (part : String) (word : IsIdentifier part) :
      (Sections.plain "size_t" (join.named part) "0").IsWithin v :=
    .plain size (join.isWithin_named.2 word) zero
  have buffer {part : String} (word : IsIdentifier part) :
      (Sections.buffer "size_t" (join.named part)).IsWithin v :=
    .buffer size (join.isWithin_named.2 word)
  have numbers := ((number "rows" (by decide)).append (number "cap" (by decide))).append
    (number "mask" (by decide))
  exact ((numbers.append columns).append (buffer (by decide))).append (buffer (by decide))

end Join

/-! ## Aggregations -/

namespace Groups

variable (groups : Groups)

/-- A variable of an aggregation is within a vocabulary exactly if its part is an identifier. -/
@[simp]
theorem isWithin_named {part : String} : (groups.named part).IsWithin v ↔ IsIdentifier part := .rfl

/-- The name of the group table's variable keeps within any vocabulary. -/
@[simp]
theorem isWithin_record : groups.record.IsWithin v := trivial

/-- The code that counts the groups keeps within any vocabulary. -/
@[simp]
theorem isWithin_count : groups.count.IsWithin v := by
  simp (disch := first | decide | exact rfl) [count]

/-- A slot of a group is within a vocabulary exactly if the group's position is. -/
@[simp]
theorem isWithin_slot {group : Code} {j : Nat} :
    (groups.slot j group).IsWithin v ↔ group.IsWithin v := by
  simp (disch := first | decide | exact rfl | simp) [slot, Piece.isWithin_of_notMem_k]

/-- An accumulator without groups keeps within any vocabulary. -/
@[simp]
theorem isWithin_accumulator (j : Nat) : (groups.accumulator j).IsWithin v :=
  IsIdentifier.append (by decide) (isIdentifier_toString j)

/-- The initial value of an accumulator keeps within any vocabulary. -/
@[simp]
theorem isWithin_initial (aggregate : Aggregate) (type : DataType) :
    (Piece.text (initial aggregate type)).IsWithin v := by
  cases aggregate <;> cases type <;>
    simp (disch := first | decide | exact rfl) [initial, DataType.greatest, DataType.least]

/-- The row of a group keeps within the vocabulary of the group's position. -/
theorem isWithin_groupRow {group : Code} (within : group.IsWithin v) :
    AllOf (Value.IsWithin v) (groups.groupRow group) := by
  simp (disch := first | decide | exact rfl | simp) [groupRow, within, Piece.isWithin_of_notMem_k]

/-- The row of an aggregation without groups keeps within any vocabulary. -/
theorem isWithin_totals : AllOf (Value.IsWithin v) groups.totals := by
  refine AllOf.map_iff.2 fun ((aggregate, type), j) _ => ?_
  dsimp only
  split <;> simp (disch := first | decide | exact rfl)

/-- The record type of a group table keeps within any vocabulary. -/
theorem isWithin_recordType : groups.recordType.IsWithin v := by
  refine ⟨trivial, ?_⟩
  simp (disch := first | decide | exact rfl | simp) [Piece.isWithin_of_notMem_k]

/-- The parameters for a group's keys keep within any vocabulary. -/
theorem isWithin_keyParameters : AllOf (Code.IsWithin v) groups.keyParameters := by
  refine AllOf.map_iff.2 fun (type, k) _ => ?_
  refine type.isWithin_parameter (Code.followsText_of_notMem ?_ (by simp)) ?_
  · simp [Lexeme.startsWord, Lexeme.isWordChar]
  · simp (disch := simp) [Piece.isWithin_of_notMem_underscore]

section

variable (helpers : v.HasHelpers)
include helpers

/-- The function that hashes a group's keys needs the helpers that all programs have. -/
theorem isWithin_hashFunction : groups.hashFunction.IsWithin v := by
  have helpers := helpers.define [.groupsHash groups.node]
  refine ⟨List.forall_mem_nil _, ⟨?_, by decide⟩, rfl, fun functions =>
    groups.isWithin_keyParameters, Statement.allWithin_codesOfAll ?_⟩
  · simp (disch := first | decide | exact rfl)
  · simp (disch := first | decide | exact rfl | simp) [helpers _, Value.isWithin_hash helpers,
      Piece.isWithin_of_notMem_underscore]

end

/-- The function that grows a group table needs the hash function. -/
theorem isWithin_growFunction (hash : .groupsHash groups.node ∈ v.functions) :
    groups.growFunction.IsWithin v := by
  -- the function is defined already when its body is read
  have hash : .groupsHash groups.node ∈ (v.define [.groupsGrow groups.node]).functions :=
    List.mem_append_left _ hash
  have grown : ∀ column ∈ groups.columnNames,
      (Piece.text s!"grown = realloc(t->{column}, (size / 2) * sizeof(*t->{column}));").IsWithin
        (v.define [.groupsGrow groups.node]) ∧
      (Piece.text s!"t->{column} = grown;").IsWithin (v.define [.groupsGrow groups.node]) := by
    intro column member
    have missing {c : Char} (noDigit : c.isDigit = false) (noLetter : c ≠ 'g' ∧ c ≠ 'v') :=
      groups.notMem_columnName member noDigit noLetter
    constructor <;>
    · refine Piece.isWithin_of_notMem_underscore (by simp) ?_ ?_ ?_ ?_ ?_ <;>
        simp (disch := decide) [missing]
  refine ⟨List.forall_mem_nil _, ⟨?_, by decide⟩, rfl, fun functions => ?_,
    Statement.allWithin_codesOfAll ?_⟩
  · simp (disch := first | decide | exact rfl)
  · simp (disch := first | decide | exact rfl)
  · simp (disch := first | decide | exact rfl | simp) [hash, Piece.isWithin_of_notMem_underscore]
    exact grown

/-- The function that finds a group needs the hash function and the grow function. -/
theorem isWithin_findFunction (hash : .groupsHash groups.node ∈ v.functions)
    (grow : .groupsGrow groups.node ∈ v.functions) : groups.findFunction.IsWithin v := by
  have hash : .groupsHash groups.node ∈ (v.define [.groupsFind groups.node]).functions :=
    List.mem_append_left _ hash
  have grow : .groupsGrow groups.node ∈ (v.define [.groupsFind groups.node]).functions :=
    List.mem_append_left _ grow
  have sameKeys (keys : List Code) :
      (Code.separated " && " keys).IsWithin (v.define [.groupsFind groups.node]) ↔
        AllOf (Code.IsWithin (v.define [.groupsFind groups.node])) keys :=
    Connective.and.isWithin_separated_spelling
  -- a new group starts with a literal behind the assignment, which is a text with a number in it
  have started (aggregate : Aggregate) (type : DataType) (j : Nat) :
      ((s!"t->v{j}[g] = " : Code) ++ (initial aggregate type : Code)).IsWithin
        (v.define [.groupsFind groups.node]) := by
    have ends : Lexeme.endsWord s!"t->v{j}[g] = ".toList = false := by
      rw [String.toList_append, Lexeme.endsWord_append _ (by decide)]
      decide
    refine (Code.isWithin_text_append_of_notMem ends (by simp)).2 ⟨?_, by simp⟩
    simp (disch := simp) [Piece.isWithin_of_notMem_k]
  refine ⟨?_, ⟨?_, by decide⟩, rfl, fun functions => AllOf.cons_iff.2
    ⟨?_, groups.isWithin_keyParameters⟩, Statement.allWithin_codesOfAll ?_⟩
  · simp (disch := first | decide | exact rfl)
  · simp (disch := first | decide | exact rfl)
  · simp (disch := first | decide | exact rfl)
  · simp (disch := first | decide | exact rfl | simp) [hash, grow, sameKeys,
      Piece.isWithin_of_notMem_underscore]
    exact fun aggregate type j _ => started aggregate type j

/-- Each function of an aggregation only calls those in front of it. -/
theorem inOrder_definitions (helpers : v.HasHelpers) :
    Definition.InOrder v groups.definitions := by
  rw [definitions]
  split
  · refine ⟨groups.isWithin_recordType, groups.isWithin_hashFunction (helpers.define _),
      groups.isWithin_growFunction ?_, groups.isWithin_findFunction ?_ ?_, trivial⟩
    all_goals simp [Vocabulary.define, Definition.function?, recordType, hashFunction, growFunction]
  · trivial

/-- An aggregation's sections keep within any vocabulary. -/
theorem isWithin_sections : groups.sections.IsWithin v := by
  rw [sections]
  split
  · constructor
    · simp (disch := first | decide | exact rfl) [Declaration.line]
    · exact .nil
    · have column : ∀ column ∈ groups.columnNames, (Piece.text column).IsWithin v := by
        intro column member
        -- the name of a column is `g` or `v` and a number: nothing else stands in it
        have missing {c : Char} (noDigit : c.isDigit = false) (noLetter : c ≠ 'g' ∧ c ≠ 'v') :=
          groups.notMem_columnName member noDigit noLetter
        refine Piece.isWithin_of_notMem_underscore
          (groups.isQuiet_columnName member).isWhole.nonempty ?_ ?_ ?_ ?_ ?_
        all_goals exact missing (by decide) (by decide)
      simpa (disch := first | decide | exact rfl) using column
  · refine .append ?_ (.concat (List.forall_mem_map.2 fun entry _ => ?_))
    · split
      · refine .plain ?_ ?_ ?_ <;> simp (disch := first | decide | exact rfl)
      · exact .empty
    · obtain ⟨⟨aggregate, type⟩, j⟩ := entry
      exact .plain type.isWithin_representation (groups.isWithin_accumulator j) (by simp)

/-- Checking the group that was found keeps within any vocabulary that its name keeps within. -/
theorem isWithin_checkGroup (checked : Bool) {group : Name} (within : group.IsWithin v) :
    AllOf (Statement.IsWithin v) (groups.checkGroup checked group) :=
  .ite (by simp (disch := first | decide | exact rfl) [within]) .nil

section

variable {groups : Groups} {row : List Value} (within : AllOf (Value.IsWithin v) row)
include within

/-- Finding the group of a row needs only the find function. -/
theorem gives_isWithin_find (defined : .groupsFind groups.node ∈ v.functions)
    {groupBy : List UInt32} {target : Name} (targetWithin : target.IsWithin v) :
    Gives (groups.find groupBy row target) (AllOf (Statement.IsWithin v)) := by
  rw [find]
  refine Gives.bind (Gives.mapM (S := Code.IsWithin v) fun column _ => ?_) fun keys keysWithin =>
    .ok ?_
  · split
    · rename_i value found
      exact .ok (within value (List.mem_of_getElem? found))
    · exact .error _
  · have keysWithin : AllOf (Code.IsWithin v) keys := keysWithin
    simp (disch := first | decide | exact rfl) [targetWithin, keysWithin, defined]

/-- The column that an aggregate reads keeps within the row's vocabulary. -/
theorem gives_isWithin_operand (column : UInt32) :
    Gives (match row[column.toNat]? with
      | some value => .ok value
      | none => .error (.aggregateColumn column) : Except LoweringError Value)
      (Value.IsWithin v) := by
  split
  · rename_i value found
    exact .ok (within value (List.mem_of_getElem? found))
  · exact .error _

/-- Adding a row to an accumulator keeps within the vocabulary of both. -/
theorem gives_isWithin_accumulate (aggregate : Aggregate) {accumulator : Code}
    (accumulatorWithin : accumulator.IsWithin v) :
    Gives (accumulate aggregate accumulator row) (AllOf (Statement.IsWithin v)) := by
  have operand := gives_isWithin_operand within
  cases aggregate with
  | count => exact .ok (by simp (disch := first | decide | exact rfl) [accumulatorWithin])
  | sum column =>
    refine (operand column).bind fun value (valueWithin : value.code.IsWithin v) => ?_
    split <;>
      exact .ok (by simp (disch := first | decide | exact rfl) [accumulatorWithin, valueWithin])
  | min column | max column =>
    refine (operand column).bind fun value (valueWithin : value.code.IsWithin v) => ?_
    exact .ok (by simp (disch := first | decide | exact rfl) [accumulatorWithin, valueWithin])

end

end Groups

end PlanCompiler
