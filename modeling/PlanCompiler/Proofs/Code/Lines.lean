import PlanCompiler.Lowering.Pipeline
import PlanCompiler.Proofs.Code.Reading

/-!
# The code of lines

What stands in the lines of a statement does not depend on how far they are indented. So statements
are lists of code, and a pipeline whose open place is filled has, in some order, the code of the
pipeline and that of the statements in it.

## Main definitions

* `AllOf`: all members of a list satisfy a condition;
* `Statement.codes`: the code of the lines of a statement;
* `Context.codes`: the code of the lines around an open place.

## Main results

* `Statement.map_code_lines`: the lines of a statement have its code, whatever their indentation;
* `Context.codesOfAll_fill_perm`: the code of a context that is filled.
-/

namespace PlanCompiler

/-- All members of a list satisfy a condition. The lemmas below take the list apart. -/
def AllOf {α : Type} (p : α → Prop) (xs : List α) : Prop := ∀ x ∈ xs, p x

namespace AllOf

variable {α β : Type} {p : α → Prop} {a : α} {as bs : List α} {xs : List β}

/-- All of no members satisfy the condition. -/
@[simp]
theorem nil : AllOf p [] := List.forall_mem_nil _

/-- All members satisfy the condition exactly if the first and all others do. -/
@[simp]
theorem cons_iff : AllOf p (a :: as) ↔ p a ∧ AllOf p as := List.forall_mem_cons

/-- All members of two lists in a row. -/
@[simp]
theorem append_iff : AllOf p (as ++ bs) ↔ AllOf p as ∧ AllOf p bs := List.forall_mem_append

/-- All images of the members of a list. -/
@[simp]
theorem map_iff {f : β → α} : AllOf p (xs.map f) ↔ ∀ x ∈ xs, p (f x) := List.forall_mem_map

/-- All members of the lists that are made of members. -/
@[simp]
theorem flatMap_iff {f : β → List α} : AllOf p (xs.flatMap f) ↔ ∀ x ∈ xs, AllOf p (f x) :=
  List.forall_mem_flatMap

/-- All members of some lists. -/
@[simp]
theorem flatten_iff {xss : List (List α)} : AllOf p xss.flatten ↔ ∀ xs ∈ xss, AllOf p xs :=
  List.forall_mem_flatten

/-- A member with its position satisfies the condition too. -/
theorem of_mem_zipIdx (all : AllOf p as) {k : Nat} (member : (a, k) ∈ as.zipIdx) : p a :=
  all a (List.fst_mem_of_mem_zipIdx member)

/-- Something that is only there under a condition. -/
theorem ite {c : Prop} [Decidable c] (yes : AllOf p as) (no : AllOf p bs) :
    AllOf p (if c then as else bs) := by
  split
  · exact yes
  · exact no

end AllOf

/-! ## Statements -/

/-- The code of the lines that open a block. -/
def Head.codes : Head → List Code
  | .bare => ["\x7b"]
  | .control code => [code ++ " \x7b"]
  | .loop directive index start test step =>
    directive.toList ++
      [("for (size_t " ++ index ++ " = " ++ start ++ "; " ++ test ++ "; " ++ step ++ ") \x7b" :
        Code)]

/-- The lines of a head have its code, however far they are indented. -/
theorem Head.map_code_lines (head : Head) (indent : Nat) :
    (head.lines indent).map Line.code = head.codes := by
  cases head with
  | bare | control => rfl
  | loop directive =>
    cases directive with
    | none | some => rfl

namespace Statement

/-- Closes a block in front of the first of some code. -/
def closeFirst : List Code → List Code
  | [] => []
  | first :: rest => ("\x7d " ++ first) :: rest

/-- Closing a block in front of some lines changes the code of the first. -/
theorem map_code_closeBefore (lines : List Line) :
    (closeBefore lines).map Line.code = closeFirst (lines.map Line.code) := by
  cases lines <;> rfl

mutual

/-- The code of the lines of a statement. -/
def codes : Statement → List Code
  | .blank => [.empty]
  | .line code => [code]
  | .control head action => [head, action]
  | .continued first rest => first :: rest
  | .declare specifier name rest => [specifier ++ name ++ rest]
  | .block head body => head.codes ++ codesOfAll body ++ [("\x7d" : Code)]
  | .branch condition body otherwise =>
    (condition ++ " \x7b") :: (codesOfAll body ++ closeFirst otherwise.codes)

/-- The code of the lines of some statements. -/
def codesOfAll : List Statement → List Code
  | [] => []
  | first :: rest => first.codes ++ codesOfAll rest

end

mutual

/-- The lines of a statement have its code, however far they are indented. -/
theorem map_code_lines (statement : Statement) (indent : Nat) :
    (statement.lines indent).map Line.code = statement.codes := by
  cases statement with
  | blank | line | control | declare => rfl
  | continued first rest =>
    rw [lines, codes, List.map_cons, List.map_map]
    exact congrArg _ (List.map_id rest)
  | block head body =>
    rw [lines, codes, List.map_append, List.map_append, head.map_code_lines,
      map_code_linesOfAll body]
    rfl
  | branch condition body otherwise =>
    rw [lines, codes, List.map_cons, List.map_append, map_code_linesOfAll body,
      map_code_closeBefore, map_code_lines otherwise]

/-- The lines of some statements have their code, however far they are indented. -/
theorem map_code_linesOfAll (statements : List Statement) (indent : Nat) :
    (linesOfAll indent statements).map Line.code = codesOfAll statements := by
  cases statements with
  | nil => rfl
  | cons first rest =>
    rw [linesOfAll, codesOfAll, List.map_append, map_code_lines first, map_code_linesOfAll rest]

end

/-- The code of some statements is that of each in order. -/
theorem codesOfAll_eq_flatMap (statements : List Statement) :
    codesOfAll statements = statements.flatMap codes := by
  induction statements with
  | nil => rfl
  | cons first rest ih => rw [codesOfAll, ih, List.flatMap_cons]

/-- The code of statements in a row. -/
theorem codesOfAll_append (first second : List Statement) :
    codesOfAll (first ++ second) = codesOfAll first ++ codesOfAll second := by
  rw [codesOfAll_eq_flatMap, List.flatMap_append, ← codesOfAll_eq_flatMap, ← codesOfAll_eq_flatMap]

end Statement

/-! ## Contexts and definitions -/

open Statement (codesOfAll)

/-- The code of the lines of a step. -/
def Step.codes : Step → List Code
  | .run statement => statement.codes
  | .enter head => head.codes ++ [("\x7d" : Code)]

namespace Context

/-- The code of the lines around an open place. -/
def codes (context : Context) : List Code := context.flatMap Step.codes

/-- The code of contexts in a row. -/
theorem codes_append (a b : Context) : codes (a ++ b) = codes a ++ codes b := List.flatMap_append

/-- The code of steps that run statements is that of the statements. -/
theorem codes_runAll (statements : List Statement) :
    codes (runAll statements) = codesOfAll statements := by
  rw [codes, runAll, List.flatMap_map, Statement.codesOfAll_eq_flatMap]
  rfl

/-- Statements at an open place stand between the lines around it. -/
theorem codesOfAll_fill_perm (context : Context) (statements : List Statement) :
    (codesOfAll (context.fill statements)).Perm (context.codes ++ codesOfAll statements) := by
  induction context with
  | nil => exact .refl _
  | cons step rest ih =>
    rw [codes, List.flatMap_cons, List.append_assoc]
    cases step with
    | run statement => exact ih.append_left _
    | enter head =>
      -- the closing brace comes behind the statements
      rw [fill, codesOfAll, codesOfAll, Statement.codes, Step.codes, List.append_nil,
        List.append_assoc, List.append_assoc]
      exact (List.perm_append_comm.trans (ih.append_left _)).append_left _

end Context

namespace Definition

/-- The code of the lines of a definition. -/
def codes (definition : Definition) : List Code := definition.lines.map Line.code

variable {name : Name}

/-- The code of a record's lines. -/
@[simp]
theorem codes_record (members : List Member) :
    (record name members).codes =
      ("typedef struct \x7b" : Code) :: (members.map fun member => member.line.code) ++
        [("\x7d " ++ name ++ ";" : Code), .empty] := by
  simp [codes, lines, Line.blank]

/-- The code of a global declaration's lines. -/
@[simp]
theorem codes_global (code : Code) : (global code).codes = [code, .empty] := rfl

/-- The code of a function's lines. -/
@[simp]
theorem codes_function (comment : List String) (result : String) (parameters : List Code)
    (body : List Statement) :
    (function comment result name parameters body).codes =
      comment.map (fun (text : String) => (text : Code)) ++
        (result ++ " " ++ name ++ "(" ++ .separated ", " parameters ++ ")" : Code) ::
          ((Statement.block .bare body).codes ++ [.empty]) := by
  rw [codes, lines, List.map_append, List.map_cons, List.map_append, Statement.map_code_lines]
  simp [Line.blank]

end Definition

end PlanCompiler
