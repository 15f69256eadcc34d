import PlanCompiler.Code.Basic

/-!
# Statements of the generated program

Statements are trees, and printing them yields lines with an indentation, so that every block
that is opened is closed again. Declarations and loops say which name they introduce.
-/

namespace PlanCompiler

/-- A line of the program. -/
structure Line where
  /-- Number of tabs in front. -/
  indent : Nat
  /-- What stands in the line. -/
  code : Code
deriving DecidableEq, Repr

namespace Line

/-- An empty line. -/
def blank : Line := { indent := 0, code := .empty }

/-- The text of a line. -/
def text (line : Line) : String :=
  String.ofList (List.replicate line.indent '\t') ++ line.code.text ++ "\n"

end Line

/-- What stands before the opening brace of a block. -/
inductive Head where
  /-- Nothing. -/
  | bare
  /-- A condition, or a loop that declares nothing. -/
  | control (code : Code)
  /-- A counting loop that declares its index, after a directive on a line of its own if there is
  one. -/
  | loop (directive : Option Code) (index : Name) (start test step : Code)
deriving DecidableEq, Repr

namespace Head

/-- The lines that open a block. -/
def lines (indent : Nat) : Head → List Line
  | .bare => [{ indent, code := "\x7b" }]
  | .control code => [{ indent, code := code ++ " \x7b" }]
  | .loop directive index start test step =>
    (directive.map fun code => { indent, code : Line }).toList ++
      [{ indent
         code := "for (size_t " ++ index ++ " = " ++ start ++ "; " ++ test ++ "; " ++ step ++
          ") \x7b" }]

/-- A loop from zero up to a length. -/
def upTo (index : Name) (length : Code) : Head :=
  .loop none index "0" (index ++ " < " ++ length) (index ++ "++")

/-- A loop over the first rows of batches. -/
def batches (index : Name) (total : Code) : Head :=
  .loop none index "0" (index ++ " < " ++ total) (index ++ " += KILN_VECTOR_SIZE")

/-- A loop with a directive for the compiler in front of it. -/
def withDirective (directive : Option Code) : Head → Head
  | .loop _ index start test step => .loop directive index start test step
  | head => head

end Head

/-- A statement. -/
inductive Statement where
  /-- An empty line. -/
  | blank
  /-- A simple statement, or any other line. -/
  | line (code : Code)
  /-- A simple statement under a condition, on two lines. -/
  | control (head action : Code)
  /-- A simple statement that continues on further lines. -/
  | continued (first : Code) (rest : List Code)
  /-- A declaration of a variable. -/
  | declare (specifier : Code) (name : Name) (rest : Code)
  /-- A block. -/
  | block (head : Head) (body : List Statement)
  /-- A block under a condition, and the block that is taken otherwise. -/
  | branch (condition : Code) (body : List Statement) (otherwise : Statement)
deriving Repr

namespace Statement

/-- Closes the block before the first of some lines, on that line. -/
def closeBefore : List Line → List Line
  | [] => []
  | first :: rest => { first with code := "\x7d " ++ first.code } :: rest

mutual

/-- The lines of a statement. -/
def lines (indent : Nat) : Statement → List Line
  | .blank => [.blank]
  | .line code => [{ indent, code }]
  | .control head action => [{ indent, code := head }, { indent := indent + 1, code := action }]
  | .continued first rest =>
    { indent, code := first } :: rest.map fun code => { indent := indent + 1, code }
  | .declare specifier name rest => [{ indent, code := specifier ++ name ++ rest }]
  | .block head body =>
    head.lines indent ++ linesOfAll (indent + 1) body ++ [{ indent, code := "\x7d" }]
  | .branch condition body otherwise =>
    { indent, code := condition ++ " \x7b" } ::
      (linesOfAll (indent + 1) body ++ closeBefore (otherwise.lines indent))

/-- The lines of some statements. -/
def linesOfAll (indent : Nat) : List Statement → List Line
  | [] => []
  | first :: rest => first.lines indent ++ linesOfAll indent rest

end

end Statement

end PlanCompiler
