import PlanCompiler.Proofs.Plan.Text.Contents

/-!
# Printing and reading text plans

A plan that is printed and read again agrees with itself exactly if its directory fits into a
line, none of its texts and patterns has a line feed, its dates lie in the years 0 to 9999 and its
numbers are no NaN.

## Main definitions

* `Plan.printNodes`: the text of nodes that need not be a plan;
* `Plan.IsPrintable`: the plans that the text format can express.

## Main results

* `Draft.addLines_print`: reading the lines of some nodes;
* `Plan.parse_eq_ok_iff_of_print`: reading the text of a plan;
* `Plan.parse_print_iff`: which plans are read back.
-/

namespace PlanCompiler

/-! ## Reading printed lines -/

/-- The text of some nodes is divided into their lines. -/
theorem Node.exists_lines_of_printLines {nodes : List Node} {text : String}
    (oneLine : ∀ node ∈ nodes, ∀ line, node.print = .ok line → '\n' ∉ line.toList)
    (printed : printLines nodes = .ok text) :
    ∃ texts : List String, List.Forall₂ (fun node line => node.print = .ok line) nodes texts ∧
      Text.lines text.toList = texts.map String.toList := by
  induction nodes generalizing text with
  | nil =>
    obtain rfl := Except.ok.inj printed
    exact ⟨[], .nil, rfl⟩
  | cons node rest ih =>
    obtain ⟨line, nodePrinted, others, restPrinted, rfl⟩ := printLines_cons_eq_ok_iff.1 printed
    obtain ⟨texts, each, divided⟩ :=
      ih (fun node member => oneLine node (List.mem_cons_of_mem _ member)) restPrinted
    refine ⟨line :: texts, .cons nodePrinted each, ?_⟩
    -- the first line ends at the first newline, since it contains none
    have chars : (line ++ "\n" ++ others).toList = line.toList ++ '\n' :: others.toList := by simp
    rw [chars, Text.lines_append (oneLine node List.mem_cons_self line nodePrinted), divided,
      List.map_cons]

namespace Draft

/-- The directory is found again in its line. -/
theorem databaseLine?_database {path : List Char} (trimmed : Text.IsTrimmed path) :
    databaseLine? ("database".toList ++ ' ' :: path) = some path := by
  have rest : LineReader.afterWord? "database" ("database".toList ++ ' ' :: path) =
      some (' ' :: path) := by
    rw [LineReader.afterWord?, if_pos (by simp)]
    rfl
  -- the blank after the word is all that is trimmed off
  have blank : Text.trim (' ' :: path) = path := by
    rw [Text.trim_cons_of_isBlank rfl, Text.trim_eq_self trimmed]
  have starts : (' ' :: path).head?.all Text.isBlank = true := rfl
  rw [databaseLine?, rest, Option.bind_eq_bind, Option.bind_some, starts, blank]
  rfl

/-- No operator starts with the letter that the line of the directory starts with. -/
theorem databaseLine?_eq_none {line : List Char} (other : line.head? ≠ some 'd') :
    databaseLine? line = none := by
  -- the first letter tells the lines apart
  have apart : ¬ "database".toList.isPrefixOf line = true := by
    rw [List.isPrefixOf_iff_prefix]
    rintro ⟨rest, rfl⟩
    exact other (by simp)
  rw [databaseLine?, LineReader.afterWord?, if_neg apart]
  rfl

/-- The line of the directory. -/
theorem addLine_database {path : String} (trimmed : Text.IsTrimmed path.toList) (number : Nat) :
    addLine {} number ("database " ++ path).toList = .ok { database := some path } := by
  have chars : ("database " ++ path).toList = "database".toList ++ ' ' :: path.toList := by simp
  have whole : Text.IsTrimmed ("database".toList ++ ' ' :: path.toList) := by
    refine Text.EndsFilled.isTrimmed ?_ (by simp; decide)
    exact trimmed.endsFilled.append ("database".toList ++ [' '])
  have noComment : ¬ ("database".toList ++ ' ' :: path.toList = [] ∨
      ("database".toList ++ ' ' :: path.toList).head? = some '#') := by
    simp
  rw [addLine, chars, Text.trim_eq_self whole]
  dsimp only
  rw [if_neg noComment, databaseLine?_database trimmed]
  dsimp only
  rw [if_neg trimmed.1, String.ofList_toList]
  rfl

/-- Numbered nodes are the nodes with their numbers. -/
theorem map_snd_swap_zipIdx (nodes : List Node) (number : Nat) :
    ((nodes.zipIdx number).map Prod.swap).map (·.2) = nodes := by
  rw [List.map_map]
  exact List.zipIdx_map_fst number nodes

section

variable {draft draft' : Draft} {number : Nat}

/-- The line of a node, valid or not. -/
theorem addLine_print {node : Node} {text : String} (form : node.HasTextForm)
    (numbers : ∀ part ∈ node.parts, part.IsReadBack)
    (printed : node.print = .ok text) :
    draft.addLine number text.toList = .ok draft' ↔ (∀ part ∈ node.parts, part.HasShortYear) ∧
      draft' = { draft with nodes := draft.nodes ++ [(number, node)] } := by
  have trimmed := Node.isTrimmed_of_print form printed
  have spelled := Node.spelledBy_of_print form numbers printed
  have head := Node.head_of_print printed
  -- the line starts with the name of the operator, so that it is neither empty nor a comment
  have noComment : ¬ (text.toList = [] ∨ text.toList.head? = some '#') := by
    rw [not_or, head]
    refine ⟨trimmed.1, ?_⟩
    cases node <;> (dsimp only [Node.name]; decide)
  have noDirectory : databaseLine? text.toList = none := by
    refine databaseLine?_eq_none ?_
    rw [head]
    cases node <;> (dsimp only [Node.name]; decide)
  rw [addLine, Text.trim_eq_self trimmed, if_neg noComment, noDirectory]
  dsimp only
  constructor
  · intro added
    split at added
    · cases added
    · rename_i other read
      obtain ⟨short, rfl⟩ := spelled.ofLine_eq_ok_iff.1 read
      exact ⟨short, (Except.ok.inj added).symm⟩
  · rintro ⟨short, rfl⟩
    rw [spelled.ofLine_eq_ok_iff.2 ⟨short, rfl⟩]

/-- The lines of nodes. -/
theorem addLines_print {nodes : List Node} {texts : List String}
    (printed : List.Forall₂ (fun node line => node.print = .ok line) nodes texts)
    (forms : ∀ node ∈ nodes, node.HasTextForm)
    (numbers : ∀ node ∈ nodes, ∀ part ∈ node.parts, part.IsReadBack) :
    draft.addLines number (texts.map String.toList) = .ok draft' ↔
      (∀ node ∈ nodes, ∀ part ∈ node.parts, part.HasShortYear) ∧
        draft' = { draft with nodes := draft.nodes ++ (nodes.zipIdx number).map Prod.swap } := by
  induction printed generalizing draft number with
  | nil =>
    rw [List.map_nil, addLines, Except.ok.injEq, List.zipIdx_nil, List.map_nil, List.append_nil,
      eq_comm]
    exact (and_iff_right fun _ => nofun).symm
  | cons first others ih =>
    rename_i node line nodes texts
    -- the draft and the number of the line change with every node
    have rest {draft number} := @ih draft number
      (fun node member => forms node (List.mem_cons_of_mem _ member))
      (fun node member => numbers node (List.mem_cons_of_mem _ member))
    rw [List.map_cons, addLines, bind_eq_ok_iff, List.forall_mem_cons, List.zipIdx_cons,
      List.map_cons]
    simp only [
      addLine_print (forms node List.mem_cons_self) (numbers node List.mem_cons_self) first,
      rest]
    constructor
    · rintro ⟨_, ⟨short, rfl⟩, later, rfl⟩
      exact ⟨⟨short, later⟩, by simp⟩
    · rintro ⟨⟨short, later⟩, rfl⟩
      exact ⟨_, ⟨short, rfl⟩, later, by simp⟩

end

end Draft

/-! ## Plans -/

namespace Plan

/-- The text of a database directory and some nodes, which need not be a plan. -/
def printNodes (database : String) (nodes : List Node) : Except Overflow String := do
  .ok ("database " ++ database ++ "\n" ++ (← Node.printLines nodes))

/-- The text of a plan is that of its nodes. -/
theorem print_eq_printNodes (plan : Plan) : plan.print = printNodes plan.database plan.nodes := rfl

section

variable {database text : String} {nodes : List Node} (line : '\n' ∉ database.toList)
  (forms : ∀ node ∈ nodes, node.HasTextForm)
  (texts : ∀ node ∈ nodes, ∀ part ∈ node.parts, part.IsOnOneLine)
  (printed : printNodes database nodes = .ok text)
include line forms texts printed

/-- Line feeds only stand behind the directory and between the lines of the nodes. -/
theorem exists_lines_of_printNodes :
    ∃ lines : List String, List.Forall₂ (fun node line => node.print = .ok line) nodes lines ∧
      Text.lines text.toList = ("database " ++ database).toList :: lines.map String.toList := by
  obtain ⟨others, nodesPrinted, result⟩ := bind_eq_ok_iff.1 printed
  obtain rfl := Except.ok.inj result
  obtain ⟨lines, each, divided⟩ := Node.exists_lines_of_printLines (fun node member _ =>
    Node.newline_notMem_of_print (forms node member) (texts node member)) nodesPrinted
  have directory : '\n' ∉ ("database " ++ database).toList := by simp [line]
  have chars : ("database " ++ database ++ "\n" ++ others).toList =
      ("database " ++ database).toList ++ '\n' :: others.toList := by
    simp
  refine ⟨lines, each, ?_⟩
  rw [chars, Text.lines_append directory, divided]

/-- Reading the lines of the text of some nodes. -/
theorem addLines_eq_ok_iff_of_printNodes (trimmed : Text.IsTrimmed database.toList)
    (numbers : ∀ node ∈ nodes, ∀ part ∈ node.parts, part.IsReadBack) {draft : Draft} :
    Draft.addLines {} 1 (Text.lines text.toList) = .ok draft ↔
      (∀ node ∈ nodes, ∀ part ∈ node.parts, part.HasShortYear) ∧
        draft = { database := some database, nodes := (nodes.zipIdx 2).map Prod.swap } := by
  obtain ⟨lines, each, whole⟩ := exists_lines_of_printNodes line forms texts printed
  rw [whole, Draft.addLines, Draft.addLine_database trimmed]
  exact Draft.addLines_print each forms numbers

end

/-- The text format can express a plan. -/
structure IsPrintable (plan : Plan) : Prop where
  /-- The directory is not empty and has no blank at either end. -/
  trimmed : Text.IsTrimmed plan.database.toList
  /-- The directory has no line feed. -/
  line : '\n' ∉ plan.database.toList
  /-- No text literal and no pattern has a line feed. -/
  texts : ∀ node ∈ plan.nodes, ∀ part ∈ node.parts, part.IsOnOneLine
  /-- The date literals lie in the years 0 to 9999. -/
  dates : ∀ node ∈ plan.nodes, ∀ part ∈ node.parts, part.HasShortYear
  /-- No float literal is a NaN. -/
  numbers : ∀ node ∈ plan.nodes, ∀ part ∈ node.parts, part.isNaN = false

/-- Reading the text of a plan without NaN that is divided into the right lines. -/
theorem parse_eq_ok_iff_of_print {plan twin : Plan} {text : String}
    (printed : plan.print = .ok text) (trimmed : Text.IsTrimmed plan.database.toList)
    (line : '\n' ∉ plan.database.toList)
    (texts : ∀ node ∈ plan.nodes, ∀ part ∈ node.parts, part.IsOnOneLine)
    (numbers : ∀ node ∈ plan.nodes, ∀ part ∈ node.parts, part.isNaN = false) :
    Plan.parse text = .ok twin ↔
      (∀ node ∈ plan.nodes, ∀ part ∈ node.parts, part.HasShortYear) ∧ twin = plan := by
  rw [print_eq_printNodes] at printed
  -- that the plan is valid gives the form that its nodes need to be read
  have forms : ∀ node ∈ plan.nodes, node.HasTextForm := by
    intro node member
    obtain ⟨earlier, schema, resolved⟩ := plan.exists_resolve member
    exact Node.hasTextForm_of_resolve resolved
  have read {draft : Draft} := @addLines_eq_ok_iff_of_printNodes _ _ _ line forms texts printed
    trimmed (fun node member part inside =>
      Expr.isReadBack_of_isNaN (numbers node member part inside))
    draft
  have nodes := Draft.map_snd_swap_zipIdx plan.nodes 2
  rw [Plan.parse, bind_eq_ok_iff]
  constructor
  · rintro ⟨draft, added, finished⟩
    obtain ⟨short, rfl⟩ := read.1 added
    obtain ⟨database, same⟩ := Draft.finish_eq_ok_iff.1 finished
    exact ⟨short, ext_nodes database (same.trans nodes)⟩
  · rintro ⟨short, rfl⟩
    exact ⟨_, read.2 ⟨short, rfl⟩, Draft.finish_eq_ok_iff.2 ⟨rfl, nodes.symm⟩⟩

/-- A plan that is printed and read again agrees with itself exactly if the text format can express
it. -/
theorem parse_print_iff (plan : Plan) :
    (∃ text twin, plan.print = .ok text ∧ Plan.parse text = .ok twin ∧ plan.agrees twin = true) ↔
      plan.IsPrintable := by
  constructor
  · rintro ⟨text, twin, printed, read, agree⟩
    -- everything but the dates is known from the plan that was read, whatever the text was
    have database : plan.database = twin.database := by
      rw [agrees, decide_eq_true_iff] at agree
      exact agree.1
    obtain ⟨trimmed, line⟩ := isTrimmed_of_parse read
    rw [← database] at trimmed line
    have texts : ∀ node ∈ plan.nodes, ∀ part ∈ node.parts, part.IsOnOneLine := by
      intro node member part inside
      obtain ⟨other, found, twinPart, inside, same⟩ := exists_part_of_agrees agree member inside
      exact Expr.isOnOneLine_of_agrees same (isOnOneLine_of_parse read found twinPart inside)
    have numbers : ∀ node ∈ plan.nodes, ∀ part ∈ node.parts, part.isNaN = false := by
      intro node member part inside
      obtain ⟨_, _, _, _, same⟩ := exists_part_of_agrees agree member inside
      exact Expr.isNaN_eq_false_of_agrees same
    -- the lines are as they were printed, so that only the dates can have kept them from being read
    have dates := ((parse_eq_ok_iff_of_print printed trimmed line texts numbers).1 read).1
    exact ⟨trimmed, line, texts, dates, numbers⟩
  · rintro ⟨trimmed, line, texts, dates, numbers⟩
    -- the dates are known to the calendar, so that there is a text
    obtain ⟨others, nodesPrinted⟩ := Node.exists_printLines dates
    have printed : plan.print = .ok ("database " ++ plan.database ++ "\n" ++ others) := by
      rw [print, nodesPrinted]
      rfl
    have read := (parse_eq_ok_iff_of_print printed trimmed line texts numbers).2 ⟨dates, rfl⟩
    exact ⟨_, plan, printed, read, agrees_self numbers⟩

end Plan

end PlanCompiler
