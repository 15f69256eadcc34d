import PlanCompiler.Lowering.Pipeline
import PlanCompiler.Proofs.Code.Lines

/-!
# Writing blocks line by line

A section of the program is written line by line. Opening a block indents the lines after it, and
closing one takes the indentation back. There is no indentation below zero, so closing a block that
was not opened would go unnoticed.

Here a section is a list of edits. `Block.editAll` carries them out; `Block.editAll?` also notices
if a block is closed that was not opened by one of them. Statements and definitions have edits that
open and close the same blocks and write the same lines. Around an open place there are edits in
front and edits behind: the blocks that are opened in front are closed behind.

## Main definitions

* `Edit`: what is done to a section at a time;
* `Block`: a section as far as it has been written;
* `Block.Completes`: edits that write certain lines and close just what they opened;
* `Statement.edits`, `Context.opening`, `Context.closing`, `Definition.edits`: the edits that write
  a part of the program.

## Main results

* `Block.Writes.completes`: edits that write lines wherever they are carried out;
* `Statement.writes_edits`, `Definition.writes_edits`: the edits of statements and of definitions;
* `Context.editsOfAll_fill`: the edits around an open place.
-/

namespace PlanCompiler

/-! ## Edits -/

/-- What is done to a section at a time. -/
inductive Edit where
  /-- An empty line is written. -/
  | blank
  /-- A line is written, with some tabs besides those for the blocks. -/
  | line (tabs : Nat) (code : Code)
  /-- A block is opened on a line of its own, or on one with a condition or a loop. -/
  | opening (head : Option Code)
  /-- A block is closed on a line of its own. -/
  | closing
deriving DecidableEq

namespace Edit

/-- A block is opened. -/
def opens : Edit → Bool
  | .opening _ => true
  | .blank | .line .. | .closing => false

/-- A block is closed. -/
def closes : Edit → Bool
  | .closing => true
  | .blank | .line .. | .opening _ => false

/-- The indentation after an edit. There is none below zero. -/
def indentation (indent : Nat) : Edit → Nat
  | .blank | .line .. => indent
  | .opening _ => indent + 1
  | .closing => indent - 1

/-- The line that is written at an indentation. -/
def written (indent : Nat) : Edit → Line
  | .blank => .blank
  | .line tabs code => { indent := indent + tabs, code }
  | .opening none => { indent, code := "\x7b" }
  | .opening (some head) => { indent, code := head ++ " \x7b" }
  | .closing => { indent := indent - 1, code := "\x7d" }

end Edit

/-- A section as far as it has been written. -/
structure Block where
  /-- The text. -/
  text : String := ""
  /-- The indentation of the next line. -/
  indent : Nat

namespace Block

/-- Carries out an edit. -/
def edit (block : Block) (edit : Edit) : Block where
  text := block.text ++ (edit.written block.indent).text
  indent := edit.indentation block.indent

/-- Carries out some edits. -/
def editAll (block : Block) (edits : List Edit) : Block := edits.foldl edit block

/-- Carries out some edits, unless one of them closes a block at the given indentation. -/
def editAll? (floor : Nat) (block : Block) : List Edit → Option Block
  | [] => some block
  | first :: rest =>
    if first.closes ∧ block.indent ≤ floor then none else (block.edit first).editAll? floor rest

variable {floor : Nat} {block result : Block} {edits : List Edit}

/-- Edits in a row are carried out one list after the other, unless the first fails. -/
theorem editAll?_append (first second : List Edit) :
    block.editAll? floor (first ++ second) =
      (block.editAll? floor first).bind fun block => block.editAll? floor second := by
  induction first generalizing block with
  | nil => rfl
  | cons edit rest ih =>
    rw [List.cons_append, editAll?, editAll?, ih]
    split <;> rfl

/-- Edits that never close below the floor are carried out as without it. -/
theorem editAll_eq_of_editAll? (done : block.editAll? floor edits = some result) :
    block.editAll edits = result := by
  induction edits generalizing block with
  | nil => exact Option.some.inj done
  | cons first rest ih =>
    rw [editAll?] at done
    split at done
    · cases done
    · exact ih done

/-- A block that is closed was opened before. -/
theorem lt_indent_of_editAll? {before after : List Edit} {edit : Edit}
    (done : block.editAll? floor (before ++ edit :: after) = some result)
    (closes : edit.closes = true) : floor < (block.editAll before).indent := by
  rw [editAll?_append, Option.bind_eq_some_iff] at done
  obtain ⟨between, reached, done⟩ := done
  rw [editAll_eq_of_editAll? reached]
  rw [editAll?] at done
  split at done
  · cases done
  · rename_i guarded
    exact Nat.lt_of_not_le fun low => guarded ⟨closes, low⟩

/-- What is opened and not closed shows in the indentation. -/
theorem indent_add_countP_of_editAll? (done : block.editAll? floor edits = some result) :
    block.indent + edits.countP Edit.opens = result.indent + edits.countP Edit.closes := by
  induction edits generalizing block with
  | nil =>
    obtain rfl := Option.some.inj done
    rfl
  | cons first rest ih =>
    rw [editAll?] at done
    split at done
    · cases done
    · rename_i guarded
      have later := ih done
      rw [List.countP_cons, List.countP_cons]
      cases first <;>
        simp [edit, Edit.indentation, Edit.opens, Edit.closes] at later guarded ⊢ <;> omega

/-- Some edits write certain lines, starting at an indentation. -/
structure Completes (indent : Nat) (edits : List Edit) (lines : List Line) : Prop where
  /-- No block is closed at the indentation at the start. -/
  guarded : ∀ before edit after, edits = before ++ edit :: after → edit.closes = true →
    indent < (editAll { indent } before).indent
  /-- The lines are written, and the indentation is that at the start. -/
  completed : editAll { indent } edits = { text := String.join (lines.map Line.text), indent }
  /-- As many blocks are closed as are opened. -/
  paired : edits.countP Edit.opens = edits.countP Edit.closes

/-- Edits that write lines wherever they are carried out, and take back the indentation that they
add. -/
def Writes (floor indent : Nat) (edits : List Edit) (lines : List Line) : Prop :=
  ∀ text : String, editAll? floor { text, indent } edits =
    some { text := text ++ String.join (lines.map Line.text), indent }

namespace Writes

variable {indent : Nat} {first second : List Edit} {lines lines' : List Line}

/-- No edits write no lines. -/
theorem nil : Writes floor indent [] [] := by
  intro text
  rw [List.map_nil, String.join_nil, String.append_empty]
  rfl

/-- Edits in a row write their lines in a row. -/
theorem append (h : Writes floor indent first lines) (h' : Writes floor indent second lines') :
    Writes floor indent (first ++ second) (lines ++ lines') := by
  intro text
  rw [editAll?_append, h, Option.bind_some, h', List.map_append, String.join_append,
    String.append_assoc]

/-- The edits for some elements write the lines for them. -/
theorem flatMap {α : Type} {f : α → List Edit} {g : α → List Line} {xs : List α}
    (each : ∀ x ∈ xs, Writes floor indent (f x) (g x)) :
    Writes floor indent (xs.flatMap f) (xs.flatMap g) := by
  induction xs with
  | nil => exact nil
  | cons x xs ih =>
    obtain ⟨here, others⟩ := List.forall_mem_cons.1 each
    rw [List.flatMap_cons, List.flatMap_cons]
    exact here.append (ih others)

/-- One edit for each element writes one line for each. -/
theorem map {α : Type} {f : α → Edit} {g : α → Line} {xs : List α}
    (each : ∀ x ∈ xs, Writes floor indent [f x] [g x]) :
    Writes floor indent (xs.map f) (xs.map g) := by
  rw [List.map_eq_flatMap, List.map_eq_flatMap]
  exact flatMap each

/-- The edit for a blank line writes it. -/
theorem blank : Writes floor indent [.blank] [.blank] := by
  intro text
  rw [List.map_singleton, String.join_cons, String.join_nil, String.append_empty]
  rfl

/-- The edit for a line writes it, so much further in. -/
theorem line (tabs : Nat) (code : Code) :
    Writes floor indent [.line tabs code] [{ indent := indent + tabs, code }] := by
  intro text
  rw [List.map_singleton, String.join_cons, String.join_nil, String.append_empty]
  rfl

/-- A block that is opened and closed again. -/
theorem braced (above : floor ≤ indent) {head : Option Code} {opened : Line}
    (same : (Edit.written indent (.opening head)).text = opened.text)
    (inside : Writes floor (indent + 1) edits lines) :
    Writes floor indent (.opening head :: (edits ++ [.closing]))
      (opened :: (lines ++ [{ indent, code := "\x7d" }])) := by
  -- the block is one step further in, so closing it does not go below the floor
  have closed (text : String) : editAll? floor { text, indent := indent + 1 } [.closing] =
      some { text := text ++ Line.text { indent, code := "\x7d" }, indent } := by
    rw [editAll?, if_neg fun low => absurd low.2 (Nat.not_le_of_lt (Nat.lt_succ_of_le above))]
    rfl
  intro text
  have start : Block.edit { text, indent } (.opening head) =
      { text := text ++ opened.text, indent := indent + 1 } := by
    rw [Block.edit, same]
    rfl
  rw [editAll?, if_neg (by simp [Edit.closes]), start, editAll?_append, inside, Option.bind_some,
    closed, List.map_cons, List.map_append, List.map_singleton, String.join_cons,
    String.join_append, String.join_cons, String.join_nil, String.append_empty]
  simp only [String.append_assoc]

/-- Edits that write lines at an indentation complete them from there. -/
theorem completes (h : Writes indent indent edits lines) : Completes indent edits lines := by
  have done := h ""
  rw [String.empty_append] at done
  refine ⟨fun before edit after same closes => ?_, editAll_eq_of_editAll? done, ?_⟩
  · exact lt_indent_of_editAll? (same ▸ done) closes
  · have counted := indent_add_countP_of_editAll? done
    exact Nat.add_left_cancel counted

end Writes

example : editAll { indent := 0 } [.opening (some "if (x)"), .line 0 "y();", .closing] =
    { text := "if (x) \x7b\n\ty();\n\x7d\n", indent := 0 } := by rfl

end Block

/-! ## Statements -/

/-- The edits that open a block. -/
def Head.edits : Head → List Edit
  | .bare => [.opening none]
  | .control code => [.opening (some code)]
  | .loop directive index start test step =>
    (directive.map fun code => Edit.line 0 code).toList ++
      [.opening (some ("for (size_t " ++ index ++ " = " ++ start ++ "; " ++ test ++ "; " ++ step ++
        ")"))]

namespace Statement

mutual

/-- The edits that write a statement. A block with an alternative has none, since these blocks only
occur in the fixed part of a program. -/
def edits : Statement → List Edit
  | .blank => [.blank]
  | .line code => [.line 0 code]
  | .control head action => [.line 0 head, .line 1 action]
  | .continued first rest => .line 0 first :: rest.map (.line 1)
  | .declare specifier name rest => [.line 0 (specifier ++ name ++ rest)]
  | .block head body => head.edits ++ (editsOfAll body ++ [.closing])
  | .branch .. => []

/-- The edits that write some statements. -/
def editsOfAll : List Statement → List Edit
  | [] => []
  | first :: rest => first.edits ++ editsOfAll rest

end

/-- The edits of statements in a row. -/
theorem editsOfAll_append (first second : List Statement) :
    editsOfAll (first ++ second) = editsOfAll first ++ editsOfAll second := by
  induction first with
  | nil => rfl
  | cons statement rest ih => rw [List.cons_append, editsOfAll, editsOfAll, ih, List.append_assoc]

mutual

/-- No block in a statement has an alternative. -/
def IsUnbranched : Statement → Prop
  | .blank | .line _ | .control .. | .continued .. | .declare .. => True
  | .block _ body => AllIsUnbranched body
  | .branch .. => False

/-- No block in some statements has an alternative. -/
def AllIsUnbranched : List Statement → Prop
  | [] => True
  | first :: rest => first.IsUnbranched ∧ AllIsUnbranched rest

end

/-- Statements have no alternatives exactly if none of them has. -/
theorem allIsUnbranched_iff {statements : List Statement} :
    AllIsUnbranched statements ↔ AllOf IsUnbranched statements := by
  induction statements with
  | nil => simp [AllIsUnbranched]
  | cons first rest ih => rw [AllIsUnbranched, ih, AllOf.cons_iff]

/-- A line has no alternatives. -/
@[simp]
theorem isUnbranched_line (code : Code) : (line code).IsUnbranched := by
  rw [IsUnbranched]
  trivial

/-- A blank line has no alternatives. -/
@[simp]
theorem isUnbranched_blank : blank.IsUnbranched := by
  rw [IsUnbranched]
  trivial

/-- A one-line control statement has no alternatives. -/
@[simp]
theorem isUnbranched_control (head action : Code) : (control head action).IsUnbranched := by
  rw [IsUnbranched]
  trivial

/-- A block has no alternatives exactly if its body has none. -/
@[simp]
theorem isUnbranched_block {head : Head} {body : List Statement} :
    (block head body).IsUnbranched ↔ AllOf IsUnbranched body := by
  rw [IsUnbranched, allIsUnbranched_iff]

open Block (Writes)

variable {floor : Nat}

/-- The edits of a head open its block on the last of its lines. -/
theorem writes_block {indent : Nat} (above : floor ≤ indent) (head : Head) {body : List Edit}
    {lines : List Line} (inside : Writes floor (indent + 1) body lines) :
    Writes floor indent (head.edits ++ (body ++ [.closing]))
      (head.lines indent ++ lines ++ [{ indent, code := "\x7d" }]) := by
  cases head with
  | bare => exact .braced above rfl inside
  | control code => exact .braced above rfl inside
  | loop directive index start test step =>
    have directed : Writes floor indent (directive.map fun code => Edit.line 0 code).toList
        (directive.map fun code => { indent, code : Line }).toList := by
      cases directive with
      | none => exact .nil
      | some code => exact .line 0 code
    -- an edit takes the brace as a text of its own, a line as part of its last one
    have same (front : Code) :
        (Edit.written indent (.opening (some (front ++ ")")))).text =
          Line.text { indent, code := front ++ ") \x7b" } := by
      have behind : (front ++ ")" ++ " \x7b" : Code).text = (front ++ ") \x7b" : Code).text := by
        simp [Code.text, Piece.toText]
      simp only [Edit.written, Line.text, behind]
    simp only [Head.edits, Head.lines, List.append_assoc, List.singleton_append]
    exact directed.append (.braced above (same _) inside)

mutual

/-- The edits of a statement write its lines at any indentation above the floor. -/
theorem writes_edits {indent : Nat} (above : floor ≤ indent) {statement : Statement}
    (unbranched : statement.IsUnbranched) :
    Writes floor indent statement.edits (statement.lines indent) := by
  cases statement with
  | blank => exact .blank
  | line code => exact .line 0 code
  | control head action => exact (Writes.line 0 head).append (.line 1 action)
  | continued first rest => exact (Writes.line 0 first).append (.map fun code _ => .line 1 code)
  | declare specifier name rest => exact .line 0 _
  | block head body =>
    rw [edits, lines]
    exact writes_block above head
      (writes_editsOfAll (Nat.le_succ_of_le above) (isUnbranched_block.1 unbranched))
  -- a branch is not unbranched
  | branch =>
    rw [IsUnbranched] at unbranched
    exact unbranched.elim

/-- The edits of some statements write their lines at any indentation above the floor. -/
theorem writes_editsOfAll {indent : Nat} (above : floor ≤ indent) {statements : List Statement}
    (unbranched : AllOf IsUnbranched statements) :
    Writes floor indent (editsOfAll statements) (linesOfAll indent statements) := by
  cases statements with
  | nil => exact .nil
  | cons first rest =>
    obtain ⟨here, others⟩ := AllOf.cons_iff.1 unbranched
    rw [editsOfAll, linesOfAll]
    exact (writes_edits above here).append (writes_editsOfAll above others)

end

end Statement

/-! ## Open places -/

namespace Context

/-- The edits in front of an open place. -/
def opening : Context → List Edit
  | [] => []
  | .run statement :: rest => statement.edits ++ opening rest
  | .enter head :: rest => head.edits ++ opening rest

/-- The edits behind an open place, which close the blocks that are open there. -/
def closing : Context → List Edit
  | [] => []
  | .run _ :: rest => closing rest
  | .enter _ :: rest => closing rest ++ [.closing]

/-- Contexts in a row are opened from the outside in. -/
theorem opening_append (a b : Context) : opening (a ++ b) = opening a ++ opening b := by
  induction a with
  | nil => rfl
  | cons step rest ih => cases step <;> simp [opening, ih]

/-- Contexts in a row are closed from the inside out. -/
theorem closing_append (a b : Context) : closing (a ++ b) = closing b ++ closing a := by
  induction a with
  | nil => simp [closing]
  | cons step rest ih => cases step <;> simp [closing, ih]

/-- Running statements opens a context with their edits. -/
theorem opening_runAll (statements : List Statement) :
    opening (runAll statements) = Statement.editsOfAll statements := by
  induction statements with
  | nil => rfl
  | cons first rest ih =>
    rw [Statement.editsOfAll, ← ih]
    rfl

/-- Running statements leaves nothing to close. -/
theorem closing_runAll (statements : List Statement) : closing (runAll statements) = [] := by
  induction statements with
  | nil => rfl
  | cons first rest ih => exact ih

/-- What is written in front of an open place, at it, and behind it. -/
theorem editsOfAll_fill (context : Context) (statements : List Statement) :
    Statement.editsOfAll (context.fill statements) =
      context.opening ++ Statement.editsOfAll statements ++ context.closing := by
  induction context with
  | nil => rw [fill, opening, closing, List.nil_append, List.append_nil]
  | cons step rest ih =>
    cases step with
    | run statement =>
      rw [fill, Statement.editsOfAll, ih, opening, closing]
      simp only [List.append_assoc]
    | enter head =>
      rw [fill, Statement.editsOfAll, Statement.edits, Statement.editsOfAll, ih, opening, closing]
      simp only [List.append_assoc, List.append_nil]

end Context

/-! ## Definitions -/

namespace Definition

/-- The edits that write a definition. The braces of a record are in lines like any others. -/
def edits : Definition → List Edit
  | .record name members =>
    .line 0 "typedef struct \x7b" :: (members.map fun member => .line 1 member.line.code) ++
      [.line 0 ("\x7d " ++ name ++ ";"), .blank]
  | .global code => [.line 0 code, .blank]
  | .function comment result name parameters body =>
    comment.map (fun (text : String) => .line 0 text) ++
      .line 0 (result ++ " " ++ name ++ "(" ++ .separated ", " parameters ++ ")") ::
      ((Statement.block .bare body).edits ++ [.blank])

/-- No block in the body of a function has an alternative. -/
def IsUnbranched : Definition → Prop
  | .record .. | .global _ => True
  | .function _ _ _ _ body => AllOf Statement.IsUnbranched body

open Block (Writes)

/-- The edits of a definition write its lines. -/
theorem writes_edits {definition : Definition} (unbranched : definition.IsUnbranched) :
    Writes 0 0 definition.edits definition.lines := by
  cases definition with
  | record name members =>
    have inside : Writes 0 0 (members.map fun member => Edit.line 1 member.line.code)
        (members.map Member.line) := .map fun member _ => .line 1 _
    exact ((Writes.line 0 _).append inside).append ((Writes.line 0 _).append .blank)
  | global code => exact (Writes.line 0 code).append .blank
  | function comment result name parameters body =>
    have comments : Writes 0 0 (comment.map fun (text : String) => Edit.line 0 text)
        (comment.map fun (text : String) => { indent := 0, code := text }) :=
      .map fun text _ => .line 0 text
    have block := Statement.writes_edits (Nat.le_refl 0)
      (Statement.isUnbranched_block.2 unbranched : (Statement.block .bare body).IsUnbranched)
    exact comments.append ((Writes.line 0 _).append (block.append .blank))

end Definition

end PlanCompiler
