import PlanCompiler.Proofs.Plan.Text.Node

/-!
# Lines of printed nodes

The text of a node is a single line if no text and no pattern in it has a line feed, and it has
no blank at either end.

## Main definitions

* `Expr.IsOnOneLine`: a text literal or a pattern has no line feed.

## Main results

* `Expr.newline_notMem_of_print`, `Node.newline_notMem_of_print`: what is printed is one line;
* `Node.isTrimmed_of_print`: the line of a node has no blank at either end.
-/

namespace PlanCompiler

open Token

namespace Expr

/-- A text literal or a pattern has no line feed. -/
def IsOnOneLine : Expr → Prop
  | .text value => '\n' ∉ value.toList
  | .like _ pattern => '\n' ∉ pattern.toList
  | _ => True

/-- A text and a pattern agree with no others. -/
theorem isOnOneLine_of_agrees {a b : Expr} (h : a.agrees b = true) (oneLine : b.IsOnOneLine) :
    a.IsOnOneLine := by
  -- only these two hold texts
  cases a with
  | text value =>
    cases b with
    | text other =>
      rw [agrees, decide_eq_true_iff] at h
      exact h.symm ▸ oneLine
    | _ => simp [agrees] at h
  | like value pattern =>
    cases b with
    | like other pattern' =>
      rw [agrees, decide_eq_true_iff] at h
      exact h.2.symm ▸ oneLine
    | _ => simp [agrees] at h
  | _ => trivial

/-- A quoted text has a line feed only if the text has one. -/
theorem newline_notMem_quoted {text : String} (h : '\n' ∉ text.toList) :
    '\n' ∉ (Text.quoted text).toList := by
  rw [Text.toList_quoted, List.mem_cons, List.mem_append, List.mem_singleton]
  rintro (quote | inside | quote)
  · cases quote
  · exact h (Text.mem_of_mem_doubleQuotes inside)
  · cases quote

/-- Expressions that print without line feeds do so in a row. -/
theorem newline_notMem_of_printEach {operands : List Expr}
    (h : ∀ operand ∈ operands, ∀ text, operand.print = .ok text → '\n' ∉ text.toList) :
    ∀ {text : String}, printEach operands = .ok text → '\n' ∉ text.toList := by
  induction operands with
  | nil =>
    rintro _ ⟨⟩
    exact List.not_mem_nil
  | cons first rest ih =>
    intro text printed
    obtain ⟨head, firstPrinted, tail, restPrinted, rfl⟩ := printEach_cons_eq_ok_iff.1 printed
    have inFirst := h first List.mem_cons_self head firstPrinted
    have inRest := ih (fun operand member => h operand (List.mem_cons_of_mem _ member)) restPrinted
    simp [inFirst, inRest]

/-- A printed expression is one line if its texts and patterns are. -/
theorem newline_notMem_of_print {e : Expr} : ∀ {text : String}, e.print = .ok text →
    (∀ part ∈ e.parts, part.IsOnOneLine) → '\n' ∉ text.toList := by
  induction e with
  -- literals other than texts are words
  | column index =>
    rintro _ ⟨⟩ -
    exact (LineReader.isWord_column index).newline_notMem
  | int value =>
    rintro _ ⟨⟩ -
    exact (LineReader.isWord_int value).newline_notMem
  | float value =>
    rintro _ ⟨⟩ -
    exact (LineReader.isWord_float value).newline_notMem
  | date days =>
    intro text printed _
    obtain ⟨civil, found, rfl⟩ := print_date_eq_ok_iff.1 printed
    exact (LineReader.isWord_date civil).newline_notMem
  | text value =>
    rintro _ ⟨⟩ oneLine
    exact newline_notMem_quoted (oneLine _ List.mem_cons_self)
  | binary op lhs rhs ihl ihr =>
    intro text printed oneLine
    obtain ⟨-, lineLeft, lineRight⟩ := forall_parts_binary.1 oneLine
    obtain ⟨left, leftPrinted, right, rightPrinted, rfl⟩ := print_binary_eq_ok_iff.1 printed
    have inSymbol : '\n' ∉ op.symbol.toList := by cases op <;> decide
    simp [inSymbol, ihl leftPrinted lineLeft, ihr rightPrinted lineRight]
  | junction connective operands ih =>
    intro text printed oneLine
    obtain ⟨-, inside⟩ := forall_parts_junction.1 oneLine
    obtain ⟨each, eachPrinted, rfl⟩ := print_junction_eq_ok_iff.1 printed
    have inWord : '\n' ∉ connective.word.toList := by cases connective <;> decide
    have inEach := newline_notMem_of_printEach
      (fun operand member text printed => ih operand member printed (inside operand member))
      eachPrinted
    simp [inWord, inEach]
  | not operand ih =>
    intro text printed oneLine
    obtain ⟨inner, innerPrinted, rfl⟩ := print_not_eq_ok_iff.1 printed
    simp [ih innerPrinted (forall_parts_not.1 oneLine).2]
  | case condition consequent alternative ihc iha ihb =>
    intro text printed oneLine
    obtain ⟨-, lineFirst, lineSecond, lineThird⟩ := forall_parts_case.1 oneLine
    obtain ⟨first, firstPrinted, second, secondPrinted, third, thirdPrinted, rfl⟩ :=
      print_case_eq_ok_iff.1 printed
    simp [ihc firstPrinted lineFirst, iha secondPrinted lineSecond, ihb thirdPrinted lineThird]
  | like value pattern ih =>
    intro text printed oneLine
    obtain ⟨linePattern, lineValue⟩ := forall_parts_like.1 oneLine
    obtain ⟨inner, innerPrinted, rfl⟩ := print_like_eq_ok_iff.1 printed
    have inPattern := newline_notMem_quoted linePattern
    simp [ih innerPrinted lineValue, inPattern]

/-- A printed expression ends with the character of a word, with a quote or with a parenthesis. -/
theorem endsFilled_of_print {e : Expr} {text : String} (printed : e.print = .ok text) :
    Text.EndsFilled text.toList := by
  -- operations end with their parenthesis, texts with their quote, and the rest are words
  have close (front : String) : Text.EndsFilled (front ++ ")").toList :=
    ⟨front.toList, ')', String.toList_append, rfl⟩
  have quoted (front value : String) : Text.EndsFilled (front ++ Text.quoted value).toList := by
    rw [String.toList_append, Text.toList_quoted]
    exact .append front.toList ⟨'\'' :: Text.doubleQuotes value.toList, '\'', rfl, rfl⟩
  cases e with
  | column index =>
    obtain rfl := Except.ok.inj printed
    exact (LineReader.isWord_column index).endsFilled
  | int value =>
    obtain rfl := Except.ok.inj printed
    exact (LineReader.isWord_int value).endsFilled
  | float value =>
    obtain rfl := Except.ok.inj printed
    exact (LineReader.isWord_float value).endsFilled
  | date days =>
    obtain ⟨civil, found, rfl⟩ := print_date_eq_ok_iff.1 printed
    exact (LineReader.isWord_date civil).endsFilled
  | text value =>
    obtain rfl := Except.ok.inj printed
    have whole := quoted "" value
    rwa [String.empty_append] at whole
  | binary op lhs rhs =>
    obtain ⟨left, -, right, -, rfl⟩ := print_binary_eq_ok_iff.1 printed
    exact close _
  | junction connective operands =>
    obtain ⟨each, -, rfl⟩ := print_junction_eq_ok_iff.1 printed
    exact close _
  | not operand =>
    obtain ⟨inner, -, rfl⟩ := print_not_eq_ok_iff.1 printed
    exact close _
  | case condition consequent alternative =>
    obtain ⟨first, -, second, -, third, -, rfl⟩ := print_case_eq_ok_iff.1 printed
    exact close _
  | like value pattern =>
    obtain ⟨inner, -, rfl⟩ := print_like_eq_ok_iff.1 printed
    exact close _

/-- Printed expressions end with no blank. -/
theorem endsFilled_of_printEach {operands : List Expr} (nonempty : operands ≠ []) :
    ∀ {text : String}, printEach operands = .ok text → Text.EndsFilled text.toList := by
  induction operands with
  | nil => exact absurd rfl nonempty
  | cons first rest ih =>
    intro text printed
    obtain ⟨head, firstPrinted, tail, restPrinted, rfl⟩ := printEach_cons_eq_ok_iff.1 printed
    cases rest with
    | nil =>
      obtain rfl := Except.ok.inj restPrinted
      rw [String.append_empty, String.toList_append]
      exact .append _ (endsFilled_of_print firstPrinted)
    | cons second others =>
      rw [String.toList_append]
      exact .append _ (ih (List.cons_ne_nil _ _) restPrinted)

end Expr

namespace Node

/-- Texts in a row end with no blank if each does. -/
theorem endsFilled_join {α : Type} {f : α → String} {values : List α} (nonempty : values ≠ [])
    (h : ∀ a, Text.EndsFilled (f a).toList) :
    Text.EndsFilled (String.join (values.map fun a => " " ++ f a)).toList := by
  induction values with
  | nil => exact absurd rfl nonempty
  | cons a rest ih =>
    rw [List.map_cons, String.join_cons, String.toList_append]
    cases rest with
    | nil =>
      rw [List.map_nil, String.join_nil, String.toList_empty, List.append_nil, String.toList_append]
      exact .append _ (h a)
    | cons b others => exact .append _ (ih (List.cons_ne_nil _ _))

/-- What has no blank at its end may be followed by values, each after a blank. -/
theorem endsFilled_append_join {α : Type} {f : α → String} {values : List α} {front : String}
    (filled : Text.EndsFilled front.toList) (h : ∀ a, Text.EndsFilled (f a).toList) :
    Text.EndsFilled (front ++ String.join (values.map fun a => " " ++ f a)).toList := by
  cases values with
  | nil => rwa [List.map_nil, String.join_nil, String.append_empty]
  | cons first rest =>
    rw [String.toList_append]
    exact .append _ (endsFilled_join (List.cons_ne_nil _ _) h)

/-- Texts in a row have no line feed if none of them has. -/
theorem newline_notMem_join {α : Type} {f : α → String} {values : List α}
    (h : ∀ a ∈ values, '\n' ∉ (f a).toList) :
    '\n' ∉ (String.join (values.map fun a => " " ++ f a)).toList := by
  rw [String.toList_join, List.mem_flatMap]
  rintro ⟨text, member, inside⟩
  obtain ⟨a, found, rfl⟩ := List.mem_map.1 member
  rw [String.toList_append, List.mem_append] at inside
  rcases inside with blank | inside
  · exact absurd blank (by decide)
  · exact h a found inside

/-- Two texts in a row have no line feed exactly if neither has. -/
theorem newline_notMem_append {s t : String} :
    '\n' ∉ (s ++ t).toList ↔ '\n' ∉ s.toList ∧ '\n' ∉ t.toList := by
  rw [String.toList_append, List.mem_append, not_or]

/-- A printed list of columns has no line feed. -/
theorem newline_notMem_columns (columns : List UInt32) :
    '\n' ∉ (", ".intercalate (columns.map fun column => toString column.toNat)).toList := by
  induction columns with
  | nil => decide
  | cons column rest ih =>
    cases rest with
    | nil => simp
    | cons next rest =>
      rw [List.map_cons, List.map_cons, String.intercalate_cons_cons, newline_notMem_append,
        newline_notMem_append]
      exact ⟨⟨(LineReader.isWord_toString column.toNat).newline_notMem, by decide⟩, ih⟩

/-- A printed aggregate has no line feed. -/
theorem newline_notMem_aggregate (aggregate : Aggregate) : '\n' ∉ aggregate.print.toList := by
  have inName : '\n' ∉ aggregate.name.toList := by
    cases aggregate <;> (dsimp only [Aggregate.name]; decide)
  rw [Aggregate.print]
  split
  · simp [inName]
  · exact inName

/-- A printed aggregate ends with no blank. -/
theorem endsFilled_aggregate (aggregate : Aggregate) : Text.EndsFilled aggregate.print.toList := by
  have name : IsWord aggregate.name := by cases aggregate <;> (dsimp only [Aggregate.name]; decide)
  rw [Aggregate.print]
  split
  · rw [String.toList_append]
    exact .append _ (LineReader.isWord_toString _).endsFilled
  · exact name.endsFilled

/-- The line of a node is one line if the texts and patterns in it are. -/
theorem newline_notMem_of_print {node : Node} {text : String} (form : node.HasTextForm)
    (oneLine : ∀ part ∈ node.parts, part.IsOnOneLine)
    (printed : node.print = .ok text) : '\n' ∉ text.toList := by
  cases node with
  | scan table columns =>
    obtain rfl := Except.ok.inj printed
    have inTable := (isWord_table form.1).newline_notMem
    have inColumns : ∀ column ∈ columns,
        '\n' ∉ (toString column.index.toNat ++ ":" ++ column.type.name).toList := by
      intro column _
      have inName : '\n' ∉ column.type.name.toList := by cases column.type <;> decide
      simp [inName]
    have inEach := newline_notMem_join inColumns
    -- the operands are put together from the left when they are printed
    simp only [← String.append_assoc] at inEach
    rw [newline_notMem_append, newline_notMem_append]
    exact ⟨⟨by decide, inTable⟩, inEach⟩
  | filter input predicate =>
    obtain ⟨inner, innerPrinted, rfl⟩ := print_filter_eq_ok_iff.1 printed
    have inInner := Expr.newline_notMem_of_print innerPrinted oneLine
    simp [inInner]
  | project input expressions =>
    obtain ⟨each, eachPrinted, rfl⟩ := print_project_eq_ok_iff.1 printed
    have inEach := Expr.newline_notMem_of_printEach (fun e member text printed =>
      Expr.newline_notMem_of_print printed fun part inside =>
        oneLine part (List.mem_flatMap.2 ⟨e, member, inside⟩)) eachPrinted
    simp [inEach]
  | join left right leftKey rightKey =>
    obtain rfl := Except.ok.inj printed
    simp
  | aggregate input groupBy aggregates =>
    obtain rfl := Except.ok.inj printed
    have inColumns := newline_notMem_columns groupBy
    have inEach := newline_notMem_join fun aggregate (_ : aggregate ∈ aggregates) =>
      newline_notMem_aggregate aggregate
    have inFront : '\n' ∉ ("aggregate " ++ toString input.toNat ++ " group [").toList := by
      simp
    rw [newline_notMem_append, newline_notMem_append, newline_notMem_append]
    exact ⟨⟨⟨inFront, inColumns⟩, by decide⟩, inEach⟩

/-- A printed line starts with the name of the operator. -/
theorem name_prefix_of_print {node : Node} {text : String} (printed : node.print = .ok text) :
    node.name.toList <+: text.toList := by
  -- a print is put together from the left, so it has to be associated to the right first
  have starts (word operands : String) : word.toList <+: (word ++ operands).toList := by
    rw [String.toList_append]
    exact List.prefix_append _ _
  cases node with
  | scan table columns =>
    obtain rfl := Except.ok.inj printed
    rw [String.append_assoc]
    exact starts "scan" (" " ++ _)
  | filter input predicate =>
    obtain ⟨inner, -, rfl⟩ := print_filter_eq_ok_iff.1 printed
    simp only [String.append_assoc]
    exact starts "filter" (" " ++ _)
  | project input expressions =>
    obtain ⟨each, -, rfl⟩ := print_project_eq_ok_iff.1 printed
    simp only [String.append_assoc]
    exact starts "project" (" " ++ _)
  | join left right leftKey rightKey =>
    obtain rfl := Except.ok.inj printed
    exact starts "join" (" " ++ _)
  | aggregate input groupBy aggregates =>
    obtain rfl := Except.ok.inj printed
    simp only [String.append_assoc]
    exact starts "aggregate" (" " ++ _)

/-- The line of a node ends with no blank. -/
theorem endsFilled_of_print {node : Node} {text : String} (form : node.HasTextForm)
    (printed : node.print = .ok text) :
    Text.EndsFilled text.toList := by
  cases node with
  | scan table columns =>
    obtain rfl := Except.ok.inj printed
    have ends : Text.EndsFilled ("scan " ++ table ++ String.join (columns.map fun column =>
        " " ++ (toString column.index.toNat ++ ":" ++ column.type.name))).toList := by
      refine endsFilled_append_join ?_ fun column => ?_
      · rw [String.toList_append]
        exact .append _ (isWord_table form.1).endsFilled
      · rw [String.toList_append]
        have word : IsWord column.type.name := by cases column.type <;> decide
        exact .append _ word.endsFilled
    simpa only [← String.append_assoc] using ends
  | filter input predicate =>
    obtain ⟨inner, innerPrinted, rfl⟩ := print_filter_eq_ok_iff.1 printed
    rw [String.toList_append]
    exact .append _ (Expr.endsFilled_of_print innerPrinted)
  | project input expressions =>
    obtain ⟨each, eachPrinted, rfl⟩ := print_project_eq_ok_iff.1 printed
    cases expressions with
    | nil =>
      -- without expressions the line ends with the number of the input
      obtain rfl := Except.ok.inj eachPrinted
      rw [String.append_empty, String.toList_append]
      exact .append _ (LineReader.isWord_toString input.toNat).endsFilled
    | cons first rest =>
      rw [String.toList_append]
      exact .append _ (Expr.endsFilled_of_printEach (List.cons_ne_nil _ _) eachPrinted)
  | join left right leftKey rightKey =>
    obtain rfl := Except.ok.inj printed
    -- all numbers but the last one are taken together
    have chars : ("join " ++ " ".intercalate ([left, right, leftKey, rightKey].map fun n =>
        toString n.toNat)) = "join " ++
        (toString left.toNat ++ " " ++ toString right.toNat ++ " " ++
          toString leftKey.toNat ++ " ") ++ toString rightKey.toNat := by
      simp [String.intercalate_cons_cons, String.append_assoc]
    rw [chars, String.toList_append]
    exact .append _ (LineReader.isWord_toString rightKey.toNat).endsFilled
  | aggregate input groupBy aggregates =>
    obtain rfl := Except.ok.inj printed
    refine endsFilled_append_join ?_ endsFilled_aggregate
    rw [String.toList_append]
    exact .append _ ⟨[], ']', rfl, rfl⟩

/-- The first letter of a printed line. -/
theorem head_of_print {node : Node} {text : String} (printed : node.print = .ok text) :
    text.toList.head? = node.name.toList.head? := by
  obtain ⟨operands, chars⟩ := name_prefix_of_print printed
  rw [← chars, List.head?_append_of_ne_nil _ node.isWord_name.1]

/-- A printed node has no blanks at its ends. -/
theorem isTrimmed_of_print {node : Node} {text : String} (form : node.HasTextForm)
    (printed : node.print = .ok text) : Text.IsTrimmed text.toList := by
  refine (endsFilled_of_print form printed).isTrimmed ?_
  rw [head_of_print printed]
  intro c first
  exact (isEnd_eq_false_iff.1 (node.isWord_name.2.2 c (List.mem_of_mem_head? first))).2

end Node

end PlanCompiler
