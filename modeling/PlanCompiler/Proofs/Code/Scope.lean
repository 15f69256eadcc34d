import PlanCompiler.Proofs.Code.Name
import PlanCompiler.Proofs.Text.Blank

/-!
# Scopes of the generated program

A text of the program is read line by line, as one checks by eye that every variable is declared:
a line that ends with a brace opens a scope, a line with nothing but a closing brace ends one, and
every variable of a node has to be declared before, in a scope that is still open. What is read is
the text alone; nothing is known of how it came about.

## Main definitions

* `Scope.mentions`: the variables of nodes that some lexemes mention;
* `Scope.declaration?`: the name that a line declares;
* `Scope.readLine`, `Scope.read`: the open scopes after a line, and after a text, if all is in
  order.
-/

namespace PlanCompiler.Scope

/-- The names declared in the open scopes, innermost first. -/
abbrev Open := List (List (List Char))

/-- The variables of nodes among lexemes. A word behind a point is a member of a record. -/
def mentions : List Lexeme → List (List Char)
  | [] => []
  | .sign '.' :: .word _ :: rest => mentions rest
  | .word chars :: rest =>
    if Lexeme.isVariable chars then chars :: mentions rest else mentions rest
  | _ :: rest => mentions rest

/-- The words that start a statement with another word behind them. -/
def keywords : List String := ["return", "goto", "else", "case"]

/-- A lexeme that stands in front of a declared name. -/
def isSpecifier : Lexeme → Bool
  | .word _ => true
  | .sign c => c = '*'
  | .literal => false

/-- The name that a statement declares, and its other lexemes. A declaration starts with a type,
which has one or more words, and the last word in front of any other sign than a star is the
name. -/
def declaration? : List Lexeme → Option (List Char × List Lexeme)
  | .word first :: rest =>
    if keywords.contains (String.ofList first) then none
    else match (rest.takeWhile isSpecifier).getLast? with
      | some (.word name) =>
        some (name, .word first :: (rest.takeWhile isSpecifier).dropLast ++
          rest.dropWhile isSpecifier)
      | _ => none
  | _ => none

/-- The name that the head of a loop declares. -/
def header? : List Lexeme → Option (List Char)
  | .word ['f', 'o', 'r'] :: .sign '(' :: inside => (declaration? inside).map (·.1)
  | _ => none

/-- All variables that are mentioned are declared in an open scope. -/
def allVisible (scopes : Open) (lexemes : List Lexeme) : Bool :=
  (mentions lexemes).all scopes.flatten.contains

/-- The open scopes after a line, unless it mentions a variable that none of them declares or
declares one that the innermost one has already. What the head of a block declares belongs to the
scope of the block. -/
def readLine (scopes : Open) (line : List Char) : Option Open :=
  let lexemes := Lexeme.scan .outside line
  if lexemes = [.sign '\x7d'] then scopes.tail?
  else if lexemes.getLast? = some (.sign '\x7b') then
    let inner := (header? lexemes).toList :: scopes
    if allVisible inner lexemes then some inner else none
  else match declaration? lexemes with
    | none => if allVisible scopes lexemes then some scopes else none
    | some (name, others) =>
      match scopes with
      | [] => none
      | here :: outer =>
        if allVisible scopes others ∧ name ∉ here then some ((name :: here) :: outer) else none

/-- The open scopes after the lines of a text. -/
def read (scopes : Open) (text : List Char) : Option Open :=
  (Text.lines text).foldlM readLine scopes

/-- The index of a loop is known in its head and in its body, and not behind it. -/
example :
    read [["j0_on".toList]]
        "for (size_t j0_i = 0; j0_i < j0_on; j0_i++) \x7b\n\tj0_on++;\n\x7d\n".toList =
      some [["j0_on".toList]] ∧
    read [["j0_on".toList]]
        "for (size_t j0_i = 0; j0_i < j0_on; j0_i++) \x7b\n\x7d\nj0_i++;\n".toList = none := by
  decide +kernel

/-- A line is read before what follows it. -/
theorem read_append {scopes : Open} {line : List Char} (sameLine : '\n' ∉ line)
    (rest : List Char) :
    read scopes (line ++ '\n' :: rest) = (readLine scopes line).bind fun scopes =>
      read scopes rest := by
  rw [read, Text.lines_append sameLine, List.foldlM_cons]
  rfl

end PlanCompiler.Scope
