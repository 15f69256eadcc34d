import PlanCompiler.Plan.Printer
import PlanCompiler.Proofs.Plan.Validity

/-!
# Printed expressions and nodes

What is printed for an expression or a node, one statement for each form, and that everything is
printed whose dates the calendar knows. Printing only fails for dates, so that the statements are
equivalences of success.

## Main definitions

* `Expr.HasShortYear`: a date literal lies in the years 0 to 9999;
* `Expr.IsDated`: the calendar has the date of a date literal.

## Main results

* `Expr.print_binary_eq_ok_iff` and its siblings: the text of an expression;
* `Node.print_filter_eq_ok_iff`, `Node.print_project_eq_ok_iff`: the line of a node;
* `Expr.exists_print`, `Node.exists_printLines`: what has a text.
-/

namespace PlanCompiler

namespace Expr

/-- A date literal lies in the years 0 to 9999. -/
def HasShortYear : Expr → Prop
  | .date days => ∃ date, CivilDate.ofDays days = .ok date ∧
      0 ≤ date.year.toInt ∧ date.year.toInt ≤ 9999
  | _ => True

instance : DecidablePred HasShortYear
  | .date days =>
    decidable_of_iff ((CivilDate.ofDays days).toOption.any fun date =>
      0 ≤ date.year.toInt ∧ date.year.toInt ≤ 9999) (by
        cases found : CivilDate.ofDays days <;> simp [HasShortYear, found, Except.toOption])
  | .column _ | .int _ | .float _ | .text _ | .binary .. | .junction .. | .not _ | .case ..
  | .like .. => .isTrue trivial

/-- The calendar has the date of a date literal. -/
def IsDated : Expr → Prop
  | .date days => ∃ date, CivilDate.ofDays days = .ok date
  | _ => True

/-- A year that is short is above all one that the calendar has. -/
theorem HasShortYear.isDated {e : Expr} (short : e.HasShortYear) : e.IsDated := by
  cases e with
  | date days =>
    obtain ⟨date, found, -⟩ := short
    exact ⟨date, found⟩
  | _ => trivial

section

variable {text : String}

attribute [local simp] print printEach bind_eq_ok_iff

/-- A date literal is printed if it is a day of the calendar. -/
theorem print_date_eq_ok_iff {days : Int32} :
    (date days).print = .ok text ↔
      ∃ civil, CivilDate.ofDays days = .ok civil ∧ text = "date'" ++ civil.text ++ "'" := by
  rw [print, Calendar.dateText, bind_eq_ok_iff]
  constructor
  · rintro ⟨_, converted, result⟩
    obtain ⟨civil, found, inner⟩ := bind_eq_ok_iff.1 converted
    obtain rfl := Except.ok.inj inner
    exact ⟨civil, found, (Except.ok.inj result).symm⟩
  · rintro ⟨civil, found, rfl⟩
    exact ⟨civil.text, bind_eq_ok_iff.2 ⟨civil, found, rfl⟩, rfl⟩

/-- A binary operation is printed if both operands are. -/
theorem print_binary_eq_ok_iff {op : BinaryOp} {lhs rhs : Expr} :
    (binary op lhs rhs).print = .ok text ↔
      ∃ left, lhs.print = .ok left ∧ ∃ right, rhs.print = .ok right ∧
        text = "(" ++ op.symbol ++ " " ++ left ++ " " ++ right ++ ")" := by
  simp [@eq_comm _ text]

/-- A junction is printed if its operands are. -/
theorem print_junction_eq_ok_iff {connective : Connective} {operands : List Expr} :
    (junction connective operands).print = .ok text ↔
      ∃ each, printEach operands = .ok each ∧ text = "(" ++ connective.word ++ each ++ ")" := by
  simp [@eq_comm _ text]

/-- A negation is printed if its operand is. -/
theorem print_not_eq_ok_iff {operand : Expr} :
    (not operand).print = .ok text ↔
      ∃ inner, operand.print = .ok inner ∧ text = "(not " ++ inner ++ ")" := by
  simp [@eq_comm _ text]

/-- A case is printed if its three parts are. -/
theorem print_case_eq_ok_iff {condition consequent alternative : Expr} :
    (case condition consequent alternative).print = .ok text ↔
      ∃ first, condition.print = .ok first ∧ ∃ second, consequent.print = .ok second ∧
        ∃ third, alternative.print = .ok third ∧
          text = "(case " ++ first ++ " " ++ second ++ " " ++ third ++ ")" := by
  simp [@eq_comm _ text]

/-- A pattern match is printed if its operand is. -/
theorem print_like_eq_ok_iff {value : Expr} {pattern : String} :
    (like value pattern).print = .ok text ↔
      ∃ inner, value.print = .ok inner ∧
        text = "(like " ++ inner ++ " " ++ Text.quoted pattern ++ ")" := by
  simp [@eq_comm _ text]

/-- Expressions are printed if the first and the others are. -/
theorem printEach_cons_eq_ok_iff {first : Expr} {rest : List Expr} :
    printEach (first :: rest) = .ok text ↔
      ∃ head, first.print = .ok head ∧ ∃ tail, printEach rest = .ok tail ∧
        text = " " ++ head ++ tail := by
  simp [@eq_comm _ text]

end

/-- Expressions are printed if each of them is. -/
theorem exists_printEach {operands : List Expr}
    (h : ∀ operand ∈ operands, ∃ text, operand.print = .ok text) :
    ∃ text, printEach operands = .ok text := by
  induction operands with
  | nil => exact ⟨"", rfl⟩
  | cons first rest ih =>
    obtain ⟨head, firstPrinted⟩ := h first List.mem_cons_self
    obtain ⟨tail, restPrinted⟩ := ih fun operand member => h operand (List.mem_cons_of_mem _ member)
    exact ⟨_, printEach_cons_eq_ok_iff.2 ⟨head, firstPrinted, tail, restPrinted, rfl⟩⟩

/-- An expression is printed if the calendar knows its dates. -/
theorem exists_print {e : Expr} (dated : ∀ part ∈ e.parts, part.IsDated) :
    ∃ text, e.print = .ok text := by
  induction e with
  | column | int | float | text => exact ⟨_, rfl⟩
  | date days =>
    obtain ⟨civil, found⟩ : (Expr.date days).IsDated := dated _ List.mem_cons_self
    exact ⟨_, print_date_eq_ok_iff.2 ⟨civil, found, rfl⟩⟩
  | binary op lhs rhs ihl ihr =>
    obtain ⟨-, datedLeft, datedRight⟩ := forall_parts_binary.1 dated
    obtain ⟨left, leftPrinted⟩ := ihl datedLeft
    obtain ⟨right, rightPrinted⟩ := ihr datedRight
    exact ⟨_, print_binary_eq_ok_iff.2 ⟨left, leftPrinted, right, rightPrinted, rfl⟩⟩
  | junction connective operands ih =>
    obtain ⟨-, inside⟩ := forall_parts_junction.1 dated
    obtain ⟨each, eachPrinted⟩ := exists_printEach fun operand member =>
      ih operand member (inside operand member)
    exact ⟨_, print_junction_eq_ok_iff.2 ⟨each, eachPrinted, rfl⟩⟩
  | not operand ih =>
    obtain ⟨inner, innerPrinted⟩ := ih (forall_parts_not.1 dated).2
    exact ⟨_, print_not_eq_ok_iff.2 ⟨inner, innerPrinted, rfl⟩⟩
  | case condition consequent alternative ihc iha ihb =>
    obtain ⟨-, datedFirst, datedSecond, datedThird⟩ := forall_parts_case.1 dated
    obtain ⟨first, firstPrinted⟩ := ihc datedFirst
    obtain ⟨second, secondPrinted⟩ := iha datedSecond
    obtain ⟨third, thirdPrinted⟩ := ihb datedThird
    exact ⟨_, print_case_eq_ok_iff.2
      ⟨first, firstPrinted, second, secondPrinted, third, thirdPrinted, rfl⟩⟩
  | like value pattern ih =>
    obtain ⟨inner, innerPrinted⟩ := ih (forall_parts_like.1 dated).2
    exact ⟨_, print_like_eq_ok_iff.2 ⟨inner, innerPrinted, rfl⟩⟩

end Expr

namespace Node

variable {text : String}

/-- A filter is printed if its predicate is. -/
theorem print_filter_eq_ok_iff {input : UInt32} {predicate : Expr} :
    (filter input predicate).print = .ok text ↔
      ∃ inner, predicate.print = .ok inner ∧
        text = "filter " ++ toString input.toNat ++ " " ++ inner := by
  simp only [print, bind_eq_ok_iff, Except.ok.injEq, @eq_comm _ text]

/-- A projection is printed if its expressions are. -/
theorem print_project_eq_ok_iff {input : UInt32} {expressions : List Expr} :
    (project input expressions).print = .ok text ↔
      ∃ each, Expr.printEach expressions = .ok each ∧
        text = "project " ++ toString input.toNat ++ each := by
  simp only [print, bind_eq_ok_iff, Except.ok.injEq, @eq_comm _ text]

/-- Nodes are printed if the first and the others are. -/
theorem printLines_cons_eq_ok_iff {node : Node} {rest : List Node} :
    printLines (node :: rest) = .ok text ↔
      ∃ line, node.print = .ok line ∧ ∃ others, printLines rest = .ok others ∧
        text = line ++ "\n" ++ others := by
  simp only [printLines, bind_eq_ok_iff, Except.ok.injEq, @eq_comm _ text]

/-- A node is printed if the calendar knows its dates. -/
theorem exists_print {node : Node} (dated : ∀ part ∈ node.parts, part.IsDated) :
    ∃ text, node.print = .ok text := by
  cases node with
  | scan | join | aggregate => exact ⟨_, rfl⟩
  | filter input predicate =>
    obtain ⟨inner, innerPrinted⟩ := Expr.exists_print dated
    exact ⟨_, print_filter_eq_ok_iff.2 ⟨inner, innerPrinted, rfl⟩⟩
  | project input expressions =>
    obtain ⟨each, eachPrinted⟩ := Expr.exists_printEach fun e member =>
      Expr.exists_print fun part inside => dated part (List.mem_flatMap.2 ⟨e, member, inside⟩)
    exact ⟨_, print_project_eq_ok_iff.2 ⟨each, eachPrinted, rfl⟩⟩

/-- Nodes are printed if all their date literals are days of the calendar. -/
theorem exists_printLines_of_isDated {nodes : List Node}
    (dated : ∀ node ∈ nodes, ∀ part ∈ node.parts, part.IsDated) :
    ∃ text, printLines nodes = .ok text := by
  induction nodes with
  | nil => exact ⟨"", rfl⟩
  | cons node rest ih =>
    obtain ⟨line, printed⟩ := exists_print (dated node List.mem_cons_self)
    obtain ⟨others, restPrinted⟩ := ih fun node member => dated node (List.mem_cons_of_mem _ member)
    exact ⟨_, printLines_cons_eq_ok_iff.2 ⟨line, printed, others, restPrinted, rfl⟩⟩

/-- Nodes are printed if all their dates have short years. -/
theorem exists_printLines {nodes : List Node}
    (short : ∀ node ∈ nodes, ∀ part ∈ node.parts, part.HasShortYear) :
    ∃ text, printLines nodes = .ok text :=
  exists_printLines_of_isDated fun node member part inside =>
    (short node member part inside).isDated

end Node

end PlanCompiler
