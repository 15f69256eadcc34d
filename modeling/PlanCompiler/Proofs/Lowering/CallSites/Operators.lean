import PlanCompiler.Lowering.Groups
import PlanCompiler.Lowering.Join
import PlanCompiler.Lowering.RowPrinter
import PlanCompiler.Lowering.Table
import PlanCompiler.Proofs.Lowering.CallSites.Expr

/-!
# Call sites in operators

The code that tables, joins and aggregations need around their rows does not mention checked
division, as long as the rows do not.

## Main definitions

* `Sections.IsQuiet`: the code of some sections does not mention checked division.

## Main results

* `Table.isQuiet_sections`, `Join.isQuiet_sections`, `Groups.isQuiet_sections`: the parts of a
  program that operators need outside of the statements.
-/

namespace PlanCompiler

/-- A parameter of a function. -/
theorem DataType.isQuiet_parameter (type : DataType) {parameter : String}
    (starts : Lexeme.startsWord parameter.toList = false)
    (quiet : (Piece.text parameter).IsQuiet) :
    ((type.representation : Code) ++ (parameter : Code)).IsQuiet :=
  (Code.isMadeOf_append_of_startsWord starts).2 ⟨by simp, Code.isMadeOf_text.2 quiet⟩

namespace Value

variable {value : Value}

/-- The hash of a value is quiet exactly if the value is. -/
@[simp]
theorem isQuiet_hash : value.hash.IsQuiet ↔ value.code.IsQuiet := by
  rw [hash]
  split <;> simp (disch := first | decide | exact rfl)

/-- A comparison of keys is quiet exactly if both keys are. -/
@[simp]
theorem isQuiet_sameKey {type : DataType} {a b : Code} :
    (sameKey type a b).IsQuiet ↔ a.IsQuiet ∧ b.IsQuiet := by
  cases type <;> simp (disch := first | decide | exact rfl) [sameKey]

end Value

/-! ## Sections -/

/-- The code of some sections does not mention checked division. -/
structure Sections.IsQuiet (sections : Sections) : Prop where
  definitions : AllOf Definition.IsQuiet sections.definitions
  declarations : AllOf Code.IsQuiet (sections.declarations.map fun declaration =>
    declaration.line.code)
  setup : AllOf Statement.IsQuiet sections.setup
  released : AllOf Code.IsQuiet sections.released

namespace Sections.IsQuiet

variable {a b : Sections} {type : String} {name : Name}

/-- The empty sections are quiet. -/
theorem empty : IsQuiet {} := ⟨.nil, .nil, .nil, .nil⟩

/-- Quiet sections in a row are quiet. -/
theorem append (first : a.IsQuiet) (second : b.IsQuiet) : (a ++ b).IsQuiet where
  definitions := AllOf.append_iff.2 ⟨first.definitions, second.definitions⟩
  declarations := by
    have both := AllOf.append_iff.2 ⟨first.declarations, second.declarations⟩
    rwa [← List.map_append] at both
  setup := AllOf.append_iff.2 ⟨first.setup, second.setup⟩
  released := AllOf.append_iff.2 ⟨first.released, second.released⟩

/-- Any number of quiet sections are quiet together. -/
theorem concat {all : List Sections} (each : ∀ sections ∈ all, sections.IsQuiet) :
    (Sections.concat all).IsQuiet := by
  induction all with
  | nil => exact .empty
  | cons first rest ih =>
    obtain ⟨firstQuiet, others⟩ := List.forall_mem_cons.1 each
    exact firstQuiet.append (ih others)

section

variable (typeQuiet : (Piece.text type).IsQuiet) (nameQuiet : name.IsQuiet)
include typeQuiet nameQuiet

/-- The section of a plain variable is quiet if its initial value is. -/
theorem plain {initial : Code} (initialQuiet : initial.IsQuiet) :
    (Sections.plain type name initial).IsQuiet := by
  constructor <;> simp (disch := first | decide | exact rfl) [Sections.plain, Declaration.line,
    typeQuiet, nameQuiet, initialQuiet]

/-- The section of a buffer is quiet. -/
theorem buffer : (Sections.buffer type name).IsQuiet := by
  constructor <;> simp (disch := first | decide | exact rfl) [Sections.buffer, Declaration.line,
    typeQuiet, nameQuiet]

/-- The section of a vector is quiet. -/
theorem vector : (Sections.vector type name).IsQuiet := by
  refine (buffer typeQuiet nameQuiet).append ?_
  constructor <;> simp (disch := first | decide | exact rfl) [nameQuiet]

end

end Sections.IsQuiet

/-! ## Tables and rows of the result -/

namespace Table

/-- The name of a table's variable is quiet. -/
@[simp]
theorem isQuiet_record (node : Nat) : (record node).IsQuiet := trivial

/-- The record type of a table is quiet. -/
theorem isQuiet_recordType (node : Nat) (columns : List ScanColumn) :
    (recordType node columns).IsQuiet := by
  have texts : AllOf Member.IsQuiet (if textPositions columns = [] then []
      else [.buffer "char" "text", .size "text_len", .size "text_cap"]) := by
    split <;> simp (disch := first | decide | exact rfl)
  simp (disch := first | decide | exact rfl | simp) [recordType, members, texts,
    Piece.isQuiet_of_notMem_k]

/-- Reading one field of a row is quiet. -/
@[simp]
theorem isQuiet_readField (column : ScanColumn) (position : Nat) :
    (readField column position).IsQuiet := by
  rw [readField]
  split
  · simp (disch := first | decide | exact rfl | simp) [Piece.isQuiet_of_notMem_k]
  · cases column.type <;>
      simp (disch := first | decide | exact rfl | simp) [fieldReader, Piece.isQuiet_of_notMem_k]

/-- Reading a row is quiet. -/
theorem isQuiet_readRow (columns : List ScanColumn) :
    AllOf Statement.IsQuiet (readRow columns) := by
  simp (disch := first | decide | exact rfl | simp) [readRow, growRows, Piece.isQuiet_of_notMem_k]

/-- The function that loads a table is quiet. -/
theorem isQuiet_loader (node : Nat) (table : String) (columns : List ScanColumn) :
    (loader node table columns).IsQuiet := by
  simp (disch := first | decide | exact rfl | simp) [loader, load, isQuiet_readRow,
    Piece.isQuiet_of_notMem_k]

/-- A table's sections are quiet. -/
theorem isQuiet_sections (node : Nat) (table : String) (columns : List ScanColumn) :
    (sections node table columns).IsQuiet where
  definitions := by simp only [sections, AllOf.cons_iff, isQuiet_recordType, isQuiet_loader,
    AllOf.nil, and_self]
  declarations := by
    simp (disch := first | decide | exact rfl) [sections, Declaration.line]
  setup := by
    simp (disch := first | decide | exact rfl) [sections]
  released := by
    have texts : AllOf Code.IsQuiet (if textPositions columns = [] then []
        else [.member (record node) "text"]) :=
      .ite .nil (by simp (disch := first | decide | exact rfl))
    simp (disch := first | decide | exact rfl | simp) [sections, released, texts,
      Piece.isQuiet_of_notMem_k]

end Table

namespace RowPrinter

/-- Printing a column is quiet if the parameter's name is. -/
@[simp]
theorem isQuiet_printColumn (type : DataType) {parameter : String}
    (quiet : (Piece.text parameter).IsQuiet) : (printColumn type parameter).IsQuiet := by
  cases type <;> simp (disch := first | decide | exact rfl) [printColumn, quiet]

/-- The body of the row printer is quiet. -/
theorem isQuiet_body (schema : Schema) : AllOf Statement.IsQuiet (body schema) := by
  have separator (k : Nat) : AllOf Statement.IsQuiet
      (if k = 0 then [] else [.line "fputs(\", \", out);"]) := by
    split <;> simp (disch := first | decide | exact rfl)
  have parameter (k : Nat) : (Piece.text s!"v{k}").IsQuiet :=
    Piece.isQuiet_of_notMem_k (by simp) (by simp) (by simp) (by simp)
  refine AllOf.append_iff.2 ⟨AllOf.flatMap_iff.2 fun (type, k) _ => ?_, ?_⟩
  · exact AllOf.append_iff.2 ⟨separator k, AllOf.cons_iff.2
      ⟨Statement.isQuiet_line.2 (isQuiet_printColumn type (parameter k)), .nil⟩⟩
  · simp (disch := first | decide | exact rfl)

/-- The definition of the row printer is quiet. -/
theorem isQuiet_definition (schema : Schema) : (definition schema).IsQuiet := by
  -- a parameter is its type and its name, with a blank at the seam
  have parameter (type : DataType) (k : Nat) :
      ((type.representation : Code) ++ (s!" v{k}" : Code)).IsQuiet :=
    type.isQuiet_parameter (by simp [Lexeme.startsWord, Lexeme.isWordChar])
      (Piece.isQuiet_of_notMem_k (by simp) (by simp) (by simp) (by simp))
  refine Definition.isQuiet_function.2 ⟨List.forall_mem_nil _, ?_, trivial,
    AllOf.cons_iff.2 ⟨?_, AllOf.map_iff.2 fun entry _ => parameter entry.1 entry.2⟩,
    isQuiet_body schema⟩
  all_goals simp (disch := first | decide | exact rfl)

/-- Printing a row of quiet codes is quiet. -/
theorem isQuiet_print {row : List Code} (quiet : AllOf Code.IsQuiet row) :
    (RowPrinter.print row).IsQuiet := by
  simp (disch := first | decide | exact rfl) [RowPrinter.print, quiet]

end RowPrinter

/-! ## Joins -/

namespace Join

variable (join : Join)

/-- A variable of a join is quiet exactly if its part is an identifier. -/
@[simp]
theorem isQuiet_named {part : String} : (join.named part).IsQuiet ↔ IsIdentifier part := .rfl

/-- The name of a stored column is quiet. -/
@[simp]
theorem isQuiet_column (k : Nat) : (join.column k).IsQuiet :=
  IsIdentifier.append (by decide) (isIdentifier_toString k)

/-- Storing a quiet row is quiet. -/
theorem isQuiet_store {row : List Value} (quiet : AllOf Value.IsQuiet row) :
    AllOf Statement.IsQuiet (join.store row) := by
  have value : ∀ value k, (value, k) ∈ row.zipIdx → value.code.IsQuiet :=
    fun value k member => quiet.of_mem_zipIdx member
  simpa (disch := first | decide | exact rfl) [store] using value

/-- Building a join's index is quiet. -/
theorem isQuiet_buildIndex : AllOf Statement.IsQuiet join.buildIndex := by
  simp (disch := first | decide | exact rfl) [buildIndex]

/-- Probing a join with a quiet key is quiet. -/
theorem isQuiet_probe (checked : Bool) {key : Value} (quiet : key.code.IsQuiet) :
    AllOf Step.IsQuiet (join.probe checked key) := by
  cases checked <;> simp (disch := first | decide | exact rfl) [probe, quiet]

/-- The columns that a probe finds are quiet. -/
theorem isQuiet_found : AllOf Value.IsQuiet join.found := by
  simp (disch := first | decide | exact rfl) [found]

/-- A join's sections are quiet. -/
theorem isQuiet_sections : join.sections.IsQuiet := by
  have size : (Piece.text "size_t").IsQuiet := by simp (disch := first | decide | exact rfl)
  have zero : (("0" : String) : Code).IsQuiet := by simp (disch := first | decide | exact rfl)
  have columns : (Sections.concat (join.stored.zipIdx.map fun entry =>
      .buffer entry.1.representation (join.column entry.2))).IsQuiet := by
    refine .concat (List.forall_mem_map.2 fun entry _ => ?_)
    exact .buffer entry.1.isQuiet_representation (join.isQuiet_column entry.2)
  have number (part : String) (word : IsIdentifier part) :
      (Sections.plain "size_t" (join.named part) "0").IsQuiet :=
    .plain size (join.isQuiet_named.2 word) zero
  have buffer {part : String} (word : IsIdentifier part) :
      (Sections.buffer "size_t" (join.named part)).IsQuiet :=
    .buffer size (join.isQuiet_named.2 word)
  -- three numbers, the columns, and two buffers for the chains
  have numbers := ((number "rows" (by decide)).append (number "cap" (by decide))).append
    (number "mask" (by decide))
  exact ((numbers.append columns).append (buffer (by decide))).append (buffer (by decide))

end Join

/-! ## Aggregations -/

namespace Groups

variable (groups : Groups)

/-- A variable of an aggregation is quiet exactly if its part is an identifier. -/
@[simp]
theorem isQuiet_named {part : String} : (groups.named part).IsQuiet ↔ IsIdentifier part := .rfl

/-- The name of the group table's variable is quiet. -/
@[simp]
theorem isQuiet_record : groups.record.IsQuiet := trivial

/-- The code that counts the groups is quiet. -/
@[simp]
theorem isQuiet_count : groups.count.IsQuiet := by
  simp (disch := first | decide | exact rfl) [count]

/-- A slot of a group is quiet exactly if the group's position is. -/
@[simp]
theorem isQuiet_slot {group : Code} {j : Nat} :
    (groups.slot j group).IsQuiet ↔ group.IsQuiet := by
  simp (disch := first | decide | exact rfl | simp) [slot, Piece.isQuiet_of_notMem_k]

/-- An accumulator without groups is quiet. -/
@[simp]
theorem isQuiet_accumulator (j : Nat) : (groups.accumulator j).IsQuiet :=
  IsIdentifier.append (by decide) (isIdentifier_toString j)

/-- The initial value of an accumulator is quiet. -/
@[simp]
theorem isQuiet_initial (aggregate : Aggregate) (type : DataType) :
    (Piece.text (initial aggregate type)).IsQuiet := by
  cases aggregate <;> cases type <;>
    simp (disch := first | decide | exact rfl) [initial, DataType.greatest, DataType.least]

/-- The row of a group at a quiet position is quiet. -/
theorem isQuiet_groupRow {group : Code} (quiet : group.IsQuiet) :
    AllOf Value.IsQuiet (groups.groupRow group) := by
  simp (disch := first | decide | exact rfl | simp) [groupRow, quiet, Piece.isQuiet_of_notMem_k]

/-- The row of an aggregation without groups is quiet. -/
theorem isQuiet_totals : AllOf Value.IsQuiet groups.totals := by
  refine AllOf.map_iff.2 fun ((aggregate, type), j) _ => ?_
  dsimp only
  split <;> simp (disch := first | decide | exact rfl)

/-- The record type of a group table is quiet. -/
theorem isQuiet_recordType : groups.recordType.IsQuiet := by
  simp (disch := first | decide | exact rfl | simp) [recordType, Piece.isQuiet_of_notMem_k]

/-- The parameters for a group's keys are quiet. -/
theorem isQuiet_keyParameters : AllOf Code.IsQuiet groups.keyParameters := by
  refine AllOf.map_iff.2 fun (type, k) _ => ?_
  exact type.isQuiet_parameter (by simp [Lexeme.startsWord, Lexeme.isWordChar])
    (Piece.isQuiet_of_notMem_underscore (by simp) (by simp) (by simp) (by simp))

/-- The function that hashes a group's keys is quiet. -/
theorem isQuiet_hashFunction : groups.hashFunction.IsQuiet := by
  simp (disch := first | decide | exact rfl | simp) [hashFunction, isQuiet_keyParameters,
    Piece.isQuiet_of_notMem_underscore]

/-- Columns of the hash table are a letter and a number. -/
theorem notMem_columnName {column : String} (member : column ∈ groups.columnNames) {c : Char}
    (noDigit : c.isDigit = false) (noLetter : c ≠ 'g' ∧ c ≠ 'v') : c ∉ column.toList := by
  rcases List.mem_append.1 member with member | member <;>
  · obtain ⟨⟨_, k⟩, -, rfl⟩ := List.mem_map.1 member
    simp [noDigit, noLetter]

/-- The names of a group table's columns are quiet. -/
theorem isQuiet_columnName {column : String} (member : column ∈ groups.columnNames) :
    (Piece.text column).IsQuiet := by
  refine Piece.isQuiet_of_notMem_underscore ?_ ?_ ?_ ?_
  · rcases List.mem_append.1 member with member | member <;>
    · obtain ⟨⟨_, k⟩, -, rfl⟩ := List.mem_map.1 member
      simp
  all_goals exact groups.notMem_columnName member (by decide) (by decide)

/-- The function that grows a group table is quiet. -/
theorem isQuiet_growFunction : groups.growFunction.IsQuiet := by
  have grown : ∀ column ∈ groups.columnNames,
      (Piece.text s!"grown = realloc(t->{column}, (size / 2) * sizeof(*t->{column}));").IsQuiet ∧
        (Piece.text s!"t->{column} = grown;").IsQuiet := by
    intro column member
    -- neither text has a character that could matter, as the name of the column has none
    have missing {c : Char} (noDigit : c.isDigit = false) (noLetter : c ≠ 'g' ∧ c ≠ 'v') :=
      groups.notMem_columnName member noDigit noLetter
    constructor <;>
    · refine Piece.isQuiet_of_notMem_underscore (by simp) ?_ ?_ ?_ <;>
        simp (disch := decide) [missing]
  simp (disch := first | decide | exact rfl | simp) [growFunction,
    Piece.isQuiet_of_notMem_underscore]
  exact grown

/-- The function that finds a group is quiet. -/
theorem isQuiet_findFunction : groups.findFunction.IsQuiet := by
  have sameKeys (keys : List Code) : (Code.separated " && " keys).IsQuiet ↔
      AllOf Code.IsQuiet keys :=
    Code.isMadeOf_separated (rfl : String.ofList _ = " && ") rfl rfl
      (Piece.isQuiet_text rfl (by decide))
  -- a new group starts with a literal behind the assignment, which is a text with a number in it
  have started (aggregate : Aggregate) (type : DataType) (j : Nat) :
      ((s!"t->v{j}[g] = " : Code) ++ (initial aggregate type : Code)).IsQuiet := by
    have ends : Lexeme.endsWord s!"t->v{j}[g] = ".toList = false := by
      rw [String.toList_append, Lexeme.endsWord_append _ (by decide)]
      decide
    have accumulator : (Piece.text s!"t->v{j}[g] = ").IsQuiet :=
      Piece.isQuiet_of_notMem_k (by simp) (by simp) (by simp) (by simp)
    exact (Code.isMadeOf_append_of_endsWord ends).2
      ⟨Code.isMadeOf_text.2 accumulator, by simp⟩
  simp (disch := first | decide | exact rfl | simp) [findFunction, isQuiet_keyParameters, sameKeys,
    Piece.isQuiet_of_notMem_underscore]
  exact fun aggregate type j _ => started aggregate type j

/-- An aggregation's sections are quiet. -/
theorem isQuiet_sections : groups.sections.IsQuiet := by
  rw [sections]
  -- groups have a table with functions of its own, totals only accumulators
  split
  · constructor
    · simp only [AllOf.cons_iff, isQuiet_recordType, isQuiet_hashFunction,
        isQuiet_growFunction, isQuiet_findFunction, AllOf.nil, and_self]
    · simp (disch := first | decide | exact rfl) [Declaration.line]
    · exact .nil
    · have column : ∀ column ∈ groups.columnNames, (Piece.text column).IsQuiet :=
        fun _ => groups.isQuiet_columnName
      simpa (disch := first | decide | exact rfl) using column
  · refine .append ?_ (.concat (List.forall_mem_map.2 fun entry _ => ?_))
    · split
      · refine .plain ?_ ?_ ?_ <;> simp (disch := first | decide | exact rfl)
      · exact .empty
    · obtain ⟨⟨aggregate, type⟩, j⟩ := entry
      exact .plain type.isQuiet_representation (groups.isQuiet_accumulator j) (by simp)

/-- Checking the group that was found is quiet. -/
theorem isQuiet_checkGroup (checked : Bool) {group : Name} (quiet : group.IsQuiet) :
    AllOf Statement.IsQuiet (groups.checkGroup checked group) :=
  .ite (by simp (disch := first | decide | exact rfl) [quiet]) .nil

section

variable {groups : Groups} {row : List Value} (quiet : AllOf Value.IsQuiet row)
include quiet

/-- Finding the group of a quiet row is quiet. -/
theorem gives_isQuiet_find {groupBy : List UInt32} {target : Name} (targetQuiet : target.IsQuiet) :
    Gives (groups.find groupBy row target) (AllOf Statement.IsQuiet) := by
  rw [find]
  refine Gives.bind (Gives.mapM (S := Code.IsQuiet) fun column _ => ?_) fun keys keysQuiet =>
    .ok ?_
  · split
    · rename_i value found
      exact .ok (quiet value (List.mem_of_getElem? found))
    · exact .error _
  · have keysQuiet : AllOf Code.IsQuiet keys := keysQuiet
    simp (disch := first | decide | exact rfl) [targetQuiet, keysQuiet]

/-- The column that an aggregate reads is quiet if the row is. -/
theorem gives_isQuiet_operand (column : UInt32) :
    Gives (match row[column.toNat]? with
      | some value => .ok value
      | none => .error (.aggregateColumn column) : Except LoweringError Value) Value.IsQuiet := by
  split
  · rename_i value found
    exact .ok (quiet value (List.mem_of_getElem? found))
  · exact .error _

/-- Adding a quiet row to a quiet accumulator is quiet. -/
theorem gives_isQuiet_accumulate (aggregate : Aggregate) {accumulator : Code}
    (accumulatorQuiet : accumulator.IsQuiet) :
    Gives (accumulate aggregate accumulator row) (AllOf Statement.IsQuiet) := by
  have operand := gives_isQuiet_operand quiet
  cases aggregate with
  | count => exact .ok (by simp (disch := first | decide | exact rfl) [accumulatorQuiet])
  | sum column =>
    refine (operand column).bind fun value (valueQuiet : value.code.IsQuiet) => ?_
    split <;>
      exact .ok (by simp (disch := first | decide | exact rfl) [accumulatorQuiet, valueQuiet])
  | min column | max column =>
    refine (operand column).bind fun value (valueQuiet : value.code.IsQuiet) => ?_
    exact .ok (by simp (disch := first | decide | exact rfl) [accumulatorQuiet, valueQuiet])

end

end Groups

end PlanCompiler
