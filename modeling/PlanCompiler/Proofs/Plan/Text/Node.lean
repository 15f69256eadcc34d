import PlanCompiler.Plan.Printer
import PlanCompiler.Proofs.Plan.Text.Expr
import PlanCompiler.Proofs.Plan.Validity

/-!
# Reading printed nodes

The line of a node that the text format can hold is read as the node, exactly if the date literals
of its expressions lie in the years 0 to 9999. The node need not be valid; what validation reports
about it is found only after the line has been read.

## Main definitions

* `Node.HasTextForm`: the text format can hold a node;
* `Node.SpelledBy`: a line is divided into tokens from which a node is read.

## Main results

* `LineReader.Reads.columnList`, `LineReader.Reads.aggregate`: the operands of an aggregation;
* `Node.spelledBy_of_print`, `Node.SpelledBy.ofLine_eq_ok_iff`: the line of a printed node.
-/

namespace PlanCompiler

namespace LineReader

open Token

/-- The tokens of an aggregate. -/
def aggregateTokens (aggregate : Aggregate) : List Token :=
  match aggregate.column? with
  | some column => [.atom aggregate.name, .atom ("$" ++ toString column.toNat)]
  | none => [.atom aggregate.name]

/-- The tokens of further columns of a list, and the bracket that ends it. -/
def moreColumnTokens : List UInt32 → List Token
  | [] => [.closeBracket]
  | column :: rest => .comma :: .atom (toString column.toNat) :: moreColumnTokens rest

/-- The tokens of a list of columns in brackets. -/
def columnListTokens : List UInt32 → List Token
  | [] => [.openBracket, .closeBracket]
  | column :: rest => .openBracket :: .atom (toString column.toNat) :: moreColumnTokens rest

/-! ## Operands -/

/-- A scan's column is read back from its text unless it is a truth value. -/
theorem scanColumnOfText_eq (column : ScanColumn) (h : column.type ≠ .bool) :
    scanColumnOfText (toString column.index.toNat ++ ":" ++ column.type.name) = .ok column := by
  obtain ⟨index, type⟩ := column
  have digits : ∀ c ∈ (toString index.toNat).toList, decide (c ≠ ':') = true := by
    intro c member
    rw [Numeral.toList_toString] at member
    refine decide_eq_true ?_
    rintro rfl
    exact absurd (Numeral.isDigit_of_mem_toDigits member) (by decide)
  have chars : (toString index.toNat ++ ":" ++ type.name).toList =
      (toString index.toNat).toList ++ ':' :: type.name.toList := by
    simp
  -- tables cannot store truth values, so that their type has no name to be read
  have name : DataType.ofName? type.name = some type := by
    cases type <;> first | rfl | exact absurd rfl h
  rw [scanColumnOfText, chars, List.dropWhile_append_of_pos digits,
    List.takeWhile_append_of_pos digits]
  have colon : (':' :: type.name.toList).dropWhile (fun c => decide (c ≠ ':')) =
      ':' :: type.name.toList := rfl
  have colon' : (':' :: type.name.toList).takeWhile (fun c => decide (c ≠ ':')) = [] := rfl
  rw [colon, colon']
  dsimp only
  rw [List.append_nil, Numeral.uint32?_toString]
  dsimp only
  rw [String.ofList_toList, name]

/-- A column's index is read back from its text. -/
theorem columnOfText_eq (column : UInt32) :
    columnOfText ("$" ++ toString column.toNat) = .ok column := by
  have read := literalOfText_column column
  have dollar : ("$" ++ toString column.toNat).toList.head? = some '$' := by simp
  rw [literalOfText, if_pos dollar, map_eq_ok_iff] at read
  obtain ⟨found, read, same⟩ := read
  cases same
  exact read

namespace Reads

/-- A scan's column is read from its atom. -/
theorem scanColumn {column : ScanColumn} (h : column.type ≠ .bool) :
    Reads anything LineReader.scanColumn
      [.atom (toString column.index.toNat ++ ":" ++ column.type.name)] True column :=
  (atom "scan column" _).bind_of_true (lift fun b => by
    rw [scanColumnOfText_eq column h, Except.ok.injEq, true_and, eq_comm])

/-- A column's index is read from its atom. -/
theorem columnReference (what : String) (column : UInt32) :
    Reads anything (LineReader.columnReference what)
      [.atom ("$" ++ toString column.toNat)] True column :=
  (atom what _).bind_of_true (lift fun b => by
    rw [columnOfText_eq, Except.ok.injEq, true_and, eq_comm])

/-- An aggregate is read from its tokens. -/
theorem aggregate (aggregate : Aggregate) :
    Reads anything LineReader.aggregate (aggregateTokens aggregate) True aggregate := by
  cases aggregate with
  | count => exact (atom "aggregate" "count").bind_of_true (pure anything Aggregate.count)
  | sum column =>
    exact (atom "aggregate" "sum").bind_of_true
      ((columnReference "sum column" column).map Aggregate.sum)
  | min column =>
    exact (atom "aggregate" "min").bind_of_true
      ((columnReference "min column" column).map Aggregate.min)
  | max column =>
    exact (atom "aggregate" "max").bind_of_true
      ((columnReference "max column" column).map Aggregate.max)

/-- The further columns of a list are read in as many rounds as there are columns. -/
theorem moreColumns {columns : List UInt32} {rounds : Nat} (enough : columns.length < rounds) :
    Reads anything (LineReader.moreColumns rounds) (moreColumnTokens columns) True columns := by
  induction columns generalizing rounds with
  | nil =>
    obtain ⟨rounds, rfl⟩ : ∃ fewer, rounds = fewer + 1 := ⟨rounds - 1, by omega⟩
    exact (next "',' or ']'" .closeBracket).bind_of_true (pure anything [])
  | cons column rest ih =>
    obtain ⟨rounds, rfl⟩ : ∃ fewer, rounds = fewer + 1 := ⟨rounds - 1, by omega⟩
    have others : rest.length < rounds := by
      rw [List.length_cons] at enough
      omega
    exact (next "',' or ']'" .comma).bind_of_true
      ((number "group column" column).bind_of_true ((ih others).map (column :: ·)))

/-- There are more tokens than further columns. -/
theorem length_lt_length_moreColumnTokens (columns : List UInt32) :
    columns.length < (moreColumnTokens columns).length := by
  induction columns with
  | nil => exact Nat.zero_lt_one
  | cons column rest ih =>
    simp only [moreColumnTokens, List.length_cons]
    omega

/-- The number of rounds depends on the tokens that are left. -/
theorem remainingColumns (columns : List UInt32) :
    Reads anything (do LineReader.moreColumns ((← get).length + 1)) (moreColumnTokens columns) True
      columns := by
  intro rest follows b later
  -- every further column takes two tokens, and the bracket one
  have enough : columns.length < (moreColumnTokens columns ++ rest).length + 1 := by
    have := length_lt_length_moreColumnTokens columns
    rw [List.length_append]
    omega
  exact moreColumns enough rest follows b later

/-- A list of columns is read from its tokens. -/
theorem columnList (columns : List UInt32) :
    Reads anything LineReader.columnList (columnListTokens columns) True columns := by
  cases columns with
  | nil =>
    have inside : Reads anything (LineReader.expect .closeBracket >>= fun _ =>
        (Pure.pure [] : LineReader (List UInt32))) [.closeBracket] True [] :=
      (expect .closeBracket).bind_of_true (pure anything [])
    exact (expect .openBracket).bind_of_true inside
  | cons column rest =>
    have inside : Reads anything (LineReader.number "group column" >>= fun first =>
        (do LineReader.moreColumns ((← get).length + 1)) >>= fun others =>
          (Pure.pure (first :: others) : LineReader (List UInt32)))
        (.atom (toString column.toNat) :: moreColumnTokens rest) True (column :: rest) :=
      (number "group column" column).bind_of_true ((remainingColumns rest).map (column :: ·))
    exact (expect .openBracket).bind_of_true inside

end Reads

end LineReader

/-- The text format can hold an expression, whatever its literals are: the expression does not nest
too deeply, and its connectives have operands. -/
def Expr.HasTextForm (e : Expr) : Prop :=
  e.depth ≤ Expr.maxDepth ∧ ∀ part ∈ e.parts, part.isEmptyJunction = false

namespace Node

open LineReader Token

/-- The text format can hold a node, whatever its literals are. -/
def HasTextForm : Node → Prop
  | .scan table columns => isTableName table = true ∧ ∀ column ∈ columns, column.type ≠ .bool
  | .filter _ predicate => predicate.HasTextForm
  | .project _ expressions => ∀ e ∈ expressions, e.HasTextForm
  | .join .. | .aggregate .. => True

/-- The text format can hold a valid node. -/
theorem hasTextForm_of_resolve {node : Node} {earlier : List Schema} {schema : Schema}
    (resolved : node.resolve earlier = .ok schema) : node.HasTextForm := by
  cases node with
  | scan table columns =>
    obtain ⟨named, -, stored, -⟩ := resolve_scan_eq_ok_iff.1 resolved
    exact ⟨named, stored⟩
  | filter input predicate =>
    exact Expr.shallow_of_typeInPlan (resolve_filter_eq_ok_iff.1 resolved).1
  | project input expressions =>
    intro e member
    obtain ⟨-, typed⟩ := resolve_project_eq_ok_iff.1 resolved
    obtain ⟨type, -, typed⟩ := exists_of_mem_of_forall₂ typed member
    exact Expr.shallow_of_typeInPlan typed
  | join | aggregate => trivial

/-- A line is divided into tokens from which a node is read, if its date literals are read back,
and otherwise no node is. -/
def SpelledBy (node : Node) (text : String) : Prop :=
  ∃ tokens, Scans text.toList (.atom node.name :: tokens) ∧
    Reads (· = []) (LineReader.operands node.name) tokens
      (∀ part ∈ node.parts, part.HasShortYear) node

/-- Texts one after the other, each after a blank. -/
theorem scans_join {α : Type} {f : α → String} {g : α → List Token} {values : List α}
    (h : ∀ a ∈ values, Scans (f a).toList (g a)) :
    Scans (String.join (values.map fun a => " " ++ f a)).toList (values.flatMap g) ∧
      Separates (String.join (values.map fun a => " " ++ f a)).toList := by
  induction values with
  | nil => exact ⟨.nil, nofun⟩
  | cons a rest ih =>
    obtain ⟨scans, separates⟩ := ih fun a member => h a (List.mem_cons_of_mem _ member)
    have chars : (String.join ((a :: rest).map fun a => " " ++ f a)).toList =
        ' ' :: ((f a).toList ++ (String.join (rest.map fun a => " " ++ f a)).toList) := by
      simp
    rw [chars, List.flatMap_cons]
    exact ⟨Scans.operand (h a List.mem_cons_self) scans separates, .cons rfl⟩

/-- The name of a node's kind is one atom. -/
theorem isWord_name (node : Node) : IsWord node.name := by
  cases node <;> (dsimp only [name]; decide)

/-- A line starts with the name of the operator. -/
theorem scans_name (node : Node) {text : String} {operands : List Char} {tokens : List Token}
    (chars : text.toList = node.name.toList ++ operands) (scans : Scans operands tokens)
    (separates : Separates operands) : Scans text.toList (.atom node.name :: tokens) := by
  rw [chars]
  exact (Scans.word node.isWord_name).append scans separates

/-- The name of a table is one atom. -/
theorem isWord_table {table : String} (h : isTableName table = true) : IsWord table := by
  rw [isTableName, decide_eq_true_iff] at h
  obtain ⟨nonempty, class'⟩ := h
  rw [List.all_eq_true] at class'
  -- letters, digits and underscores neither end an atom nor open a quoted text
  have inside : ∀ c ∈ table.toList, isEnd c = false ∧ c ≠ '\'' := by
    intro c member
    rcases Bool.or_eq_true _ _ ▸ class' c member with alphanumeric | underscore
    · exact ⟨isEnd_of_isAlphanum alphanumeric, by rintro rfl; cases alphanumeric⟩
    · rw [of_decide_eq_true underscore]
      decide
  refine ⟨nonempty, fun c first => (inside c (List.mem_of_mem_head? first)).2,
    fun c member => (inside c member).1⟩

/-- The columns of a list, with a comma and a blank between them, and the bracket after them. -/
theorem scans_columns (column : UInt32) (rest : List UInt32) {others : List Char}
    {more : List Token}
    (later : Scans others more) :
    Scans ((", ".intercalate ((column :: rest).map fun column => toString column.toNat)).toList ++
      ']' :: others) (.atom (toString column.toNat) :: (moreColumnTokens rest ++ more)) := by
  have word := Scans.word (isWord_toString column.toNat)
  induction rest generalizing column with
  | nil =>
    rw [List.map_singleton, String.intercalate_singleton]
    exact word.append (.mark rfl later) (.cons rfl)
  | cons next rest ih =>
    -- a comma and a blank stand between two columns, and nothing behind the last
    have chars :
        (", ".intercalate
            ((column :: next :: rest).map fun column => toString column.toNat)).toList =
        (toString column.toNat).toList ++ ',' :: ' ' ::
          (", ".intercalate ((next :: rest).map fun column => toString column.toNat)).toList := by
      rw [List.map_cons, List.map_cons, String.intercalate_cons_cons, String.toList_append,
        String.toList_append, List.append_assoc]
      rfl
    rw [chars, List.append_assoc]
    exact word.append (.mark rfl (.blank rfl (ih next (.word (isWord_toString _))))) (.cons rfl)

/-- A printed list of columns is divided into its tokens. -/
theorem scans_columnList (columns : List UInt32) {others : List Char} {more : List Token}
    (later : Scans others more) :
    Scans ('[' :: ((", ".intercalate (columns.map fun column => toString column.toNat)).toList ++
      ']' :: others)) (columnListTokens columns ++ more) := by
  cases columns with
  | nil => exact .mark rfl (.mark rfl later)
  | cons column rest => exact .mark rfl (scans_columns column rest later)

/-- A printed aggregate is divided into its tokens. -/
theorem scans_aggregate (aggregate : Aggregate) :
    Scans aggregate.print.toList (aggregateTokens aggregate) := by
  have name : IsWord aggregate.name := by cases aggregate <;> (dsimp only [Aggregate.name]; decide)
  unfold Aggregate.print aggregateTokens
  cases aggregate.column? with
  | none => exact .word name
  | some column =>
    have chars : (aggregate.name ++ " $" ++ toString column.toNat).toList =
        aggregate.name.toList ++ (' ' :: (("$" ++ toString column.toNat).toList ++ [])) := by
      simp
    dsimp only
    rw [chars]
    exact (Scans.word name).append (.operand (.word (isWord_column column)) .nil nofun) (.cons rfl)

namespace SpelledBy

/-- A scan is spelled by its printed line. -/
theorem scan {table : String} {columns : List ScanColumn} (named : isTableName table = true)
    (stored : ∀ column ∈ columns, column.type ≠ .bool) {text : String}
    (printed : (Node.scan table columns).print = .ok text) :
    (Node.scan table columns).SpelledBy text := by
  obtain rfl := Except.ok.inj printed
  -- a column is a single word, from its position to its type
  let written (column : ScanColumn) := toString column.index.toNat ++ ":" ++ column.type.name
  have columnScans : ∀ column ∈ columns,
      Scans (written column).toList [.atom (written column)] := by
    intro column _
    have colon : IsWord ":" := by decide
    have name : IsWord column.type.name := by cases column.type <;> decide
    exact .word (((isWord_toString column.index.toNat).append colon.2.2).append name.2.2)
  obtain ⟨scans, separates⟩ := scans_join columnScans
  have chars : ("scan " ++ table ++ String.join (columns.map fun column =>
      " " ++ toString column.index.toNat ++ ":" ++ column.type.name)).toList =
      "scan".toList ++ ' ' :: (table.toList ++
        (String.join (columns.map fun column => " " ++ written column)).toList) := by
    simp [written, String.append_assoc]
  refine ⟨_, scans_name (.scan table columns) chars
    (Scans.operand (.word (isWord_table named)) scans separates) (.cons rfl), ?_⟩
  have reads := (Reads.manyToEnd_of_true (g := fun column => [.atom (written column)])
    fun column member => ⟨Reads.scanColumn (stored column member), List.cons_ne_nil _ _⟩).map
      (Node.scan table)
  exact ((Reads.atom "table name" table).bind_of_true reads).congr
    (iff_of_true trivial fun _ => nofun)

/-- A filter is spelled by its input and the spelling of its predicate. -/
theorem filter (input : UInt32) {predicate : Expr} {inner : String} (h : predicate.SpelledBy inner)
    (shallow : predicate.depth ≤ Expr.maxDepth) :
    (Node.filter input predicate).SpelledBy
      ("filter " ++ toString input.toNat ++ " " ++ inner) := by
  obtain ⟨tokens, scans, reads⟩ := h
  have chars : ("filter " ++ toString input.toNat ++ " " ++ inner).toList =
      "filter".toList ++ ' ' :: ((toString input.toNat).toList ++ ' ' :: (inner.toList ++ [])) := by
    simp
  have operands := Scans.operand (.word (isWord_toString input.toNat)) (.operand scans .nil nofun)
    (.cons rfl)
  refine ⟨_, scans_name (.filter input predicate) chars operands (.cons rfl), ?_⟩
  -- the predicate is the last operand, so it is read to the end of the line
  have reads : Reads anything (LineReader.operands "filter")
      (.atom (toString input.toNat) :: tokens)
      (∀ part ∈ predicate.parts, part.HasShortYear) (.filter input predicate) := by
    refine (Reads.number "input node" input).bind_of_true ?_
    exact (reads.reads Expr.maxDepth shallow).map (Node.filter input)
  rw [List.append_nil]
  exact reads.mono fun _ _ => trivial

/-- A projection is spelled by its input and the spellings of its expressions. -/
theorem project (input : UInt32) {expressions : List Expr} {groups : List (List Token)}
    {each : String}
    (scans : Scans each.toList groups.flatten) (separates : Separates each.toList)
    (reads : List.Forall₂ Expr.ReadFrom expressions groups)
    (shallow : ∀ e ∈ expressions, e.depth ≤ Expr.maxDepth) :
    (Node.project input expressions).SpelledBy ("project " ++ toString input.toNat ++ each) := by
  have chars : ("project " ++ toString input.toNat ++ each).toList =
      "project".toList ++ ' ' :: ((toString input.toNat).toList ++ each.toList) := by
    simp
  have operands := Scans.operand (.word (isWord_toString input.toNat)) scans separates
  refine ⟨_, scans_name (.project input expressions) chars operands (.cons rfl), ?_⟩
  -- each expression is read from its own group of tokens
  have each := ((List.forall₂_and_left expressions groups).2 ⟨shallow, reads⟩).imp
    fun (e : Expr) group (read : e.depth ≤ Expr.maxDepth ∧ e.ReadFrom group) =>
      And.intro (read.2.reads Expr.maxDepth read.1) read.2.nonempty
  have reads : Reads (· = []) (LineReader.operands "project")
      (.atom (toString input.toNat) :: groups.flatten)
      (∀ e ∈ expressions, ∀ part ∈ e.parts, part.HasShortYear) (.project input expressions) := by
    refine (Reads.number "input node" input).bind_of_true ?_
    exact (Reads.manyToEnd each).map (Node.project input)
  refine reads.congr ?_
  simp only [parts, List.mem_flatMap]
  exact ⟨fun h part ⟨e, member, inside⟩ => h e member part inside,
    fun h e member part inside => h part ⟨e, member, inside⟩⟩

/-- A join is spelled by its printed line. -/
theorem join (left right leftKey rightKey : UInt32) {text : String}
    (printed : (Node.join left right leftKey rightKey).print = .ok text) :
    (Node.join left right leftKey rightKey).SpelledBy text := by
  obtain rfl := Except.ok.inj printed
  -- the line, written as the scanner divides it
  have chars : ("join " ++ " ".intercalate ([left, right, leftKey, rightKey].map fun n =>
      toString n.toNat)).toList =
      "join".toList ++ ' ' :: ((toString left.toNat).toList ++
        ' ' :: ((toString right.toNat).toList ++ ' ' :: ((toString leftKey.toNat).toList ++
          ' ' :: ((toString rightKey.toNat).toList ++ [])))) := by
    simp
  have number (n : UInt32) := Scans.word (isWord_toString n.toNat)
  have operands := Scans.operand (number left) (.operand (number right) (.operand (number leftKey)
    (.operand (number rightKey) .nil nofun) (.cons rfl)) (.cons rfl)) (.cons rfl)
  refine ⟨_, scans_name (.join left right leftKey rightKey) chars operands (.cons rfl), ?_⟩
  have reads : Reads anything (LineReader.operands "join")
      ([left, right, leftKey, rightKey].map fun n => .atom (toString n.toNat)) True
      (.join left right leftKey rightKey) := by
    refine (Reads.number "input node" left).bind_of_true ?_
    refine (Reads.number "input node" right).bind_of_true ?_
    refine (Reads.number "left key" leftKey).bind_of_true ?_
    exact (Reads.number "right key" rightKey).map (Node.join left right leftKey)
  exact (reads.mono fun _ _ => trivial).congr (iff_of_true trivial fun _ => nofun)

/-- An aggregation is spelled by its printed line. -/
theorem aggregate (input : UInt32) (groupBy : List UInt32) (aggregates : List Aggregate)
    {text : String} (printed : (Node.aggregate input groupBy aggregates).print = .ok text) :
    (Node.aggregate input groupBy aggregates).SpelledBy text := by
  obtain rfl := Except.ok.inj printed
  obtain ⟨scans, separates⟩ := scans_join fun (a : Aggregate) (_ : a ∈ aggregates) =>
    scans_aggregate a
  -- the line, written as the scanner divides it
  have chars : ("aggregate " ++ toString input.toNat ++ " group [" ++
      ", ".intercalate (groupBy.map fun column => toString column.toNat) ++ "]" ++
        String.join (aggregates.map fun aggregate => " " ++ aggregate.print)).toList =
      "aggregate".toList ++ ' ' :: ((toString input.toNat).toList ++ ' ' :: ("group".toList ++
        ' ' :: ('[' ::
          ((", ".intercalate (groupBy.map fun column => toString column.toNat)).toList ++ ']' ::
            (String.join (aggregates.map fun aggregate => " " ++ aggregate.print)).toList)))) := by
    simp
  have group : IsWord "group" := by decide
  have operands := Scans.operand (.word (isWord_toString input.toNat)) (.operand (.word group)
    (.blank (c := ' ') rfl (scans_columnList groupBy scans)) (.cons rfl)) (.cons rfl)
  refine ⟨_, scans_name (.aggregate input groupBy aggregates) chars operands (.cons rfl), ?_⟩
  -- what is left of the line are the aggregates, read until no token is left
  have each := (Reads.manyToEnd_of_true (g := aggregateTokens) fun a (_ : a ∈ aggregates) =>
    ⟨Reads.aggregate a, by unfold aggregateTokens; split <;> exact List.cons_ne_nil _ _⟩).map
      (Node.aggregate input groupBy)
  have reads : Reads (· = []) (LineReader.operands "aggregate") (.atom (toString input.toNat) ::
      .atom "group" :: (columnListTokens groupBy ++ aggregates.flatMap aggregateTokens)) True
      (.aggregate input groupBy aggregates) := by
    refine (Reads.number "input node" input).bind_of_true ?_
    refine (Reads.keyword "group").bind_of_true ?_
    exact (Reads.columnList groupBy).bind_of_true each
  exact reads.congr (iff_of_true trivial fun _ => nofun)

end SpelledBy

/-- The text of a node is read as the node if the format can hold it and the numbers in it are those
that their texts are read as. -/
theorem spelledBy_of_print {node : Node} {text : String} (form : node.HasTextForm)
    (numbers : ∀ part ∈ node.parts, part.IsReadBack)
    (printed : node.print = .ok text) : node.SpelledBy text := by
  cases node with
  | scan table columns => exact .scan form.1 form.2 printed
  | filter input predicate =>
    obtain ⟨shallow, filled⟩ := form
    obtain ⟨inner, innerPrinted, rfl⟩ := print_filter_eq_ok_iff.1 printed
    exact .filter input (Expr.spelledBy_of_print innerPrinted fun part inside =>
      ⟨numbers part inside, filled part inside⟩) shallow
  | project input expressions =>
    obtain ⟨each, eachPrinted, rfl⟩ := print_project_eq_ok_iff.1 printed
    obtain ⟨groups, scans, separates, reads⟩ := Expr.exists_groups_of_printEach
      (fun e member text printed => Expr.spelledBy_of_print printed fun part inside =>
        ⟨numbers part (List.mem_flatMap.2 ⟨e, member, inside⟩), (form e member).2 part inside⟩)
      eachPrinted
    exact .project input scans separates reads fun e member => (form e member).1
  | join left right leftKey rightKey => exact .join left right leftKey rightKey printed
  | aggregate input groupBy aggregates => exact .aggregate input groupBy aggregates printed

/-- The line of a printed node is read as the node, if its date literals are read back. -/
theorem SpelledBy.ofLine_eq_ok_iff {node other : Node} {text : String} (h : node.SpelledBy text) :
    Node.ofLine text.toList = .ok other ↔
      (∀ part ∈ node.parts, part.HasShortYear) ∧ other = node := by
  obtain ⟨tokens, scans, reads⟩ := h
  have whole : Reads (· = []) LineReader.node (.atom node.name :: tokens)
      ((∀ part ∈ node.parts, part.HasShortYear) ∧ True) node := by
    have follow : ∀ rest : List Token, rest = [] → [] ++ rest = [] := fun _ follows => follows
    rw [← List.append_nil tokens]
    refine (Reads.atom "operator" node.name).bind_of_true (reads.bind ?_ follow)
    -- behind the operands the reader looks for the end of the line
    rintro _ rfl b later
    show (Except.ok (node, []) : Except LineFault _) = _ ↔ _
    rw [Except.ok.injEq, Prod.mk.injEq, true_and, eq_comm, @eq_comm _ later]
  -- nothing follows the line
  have line := fun later => whole.congr (iff_of_eq (and_true _)) [] rfl other later
  rw [List.append_nil] at line
  rw [Node.ofLine, scans.ofLine_eq]
  constructor
  · intro read
    obtain ⟨_, ⟨⟩, read⟩ := bind_eq_ok_iff.1 read
    obtain ⟨⟨node', later⟩, found, result⟩ := bind_eq_ok_iff.1 read
    obtain rfl : node' = other := Except.ok.inj result
    obtain ⟨holds, same, -⟩ := (line later).1 found
    exact ⟨holds, same⟩
  · rintro ⟨holds, same⟩
    refine bind_eq_ok_iff.2 ⟨_, rfl, bind_eq_ok_iff.2 ⟨(other, []), ?_, rfl⟩⟩
    exact (line []).2 ⟨holds, same, rfl⟩

end Node

end PlanCompiler
