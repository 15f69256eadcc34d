import PlanCompiler.Code.Definition
import PlanCompiler.Proofs.Code.Plain
import PlanCompiler.Proofs.Code.Scope

/-!
# Memory of the generated program

Which lines declare pointers to memory, which ones release it, and which ones can leave the main
function, as far as their lexemes tell. Pointers are variables that are declared with a star and
start as `NULL`, and those members of a record that starts as `{0}` whose lines have a star.

## Main definitions

* `Memory.pointers`: the pointers that a line declares, given the definitions of types;
* `Memory.frees`: what the calls of `free` in a line release;
* `Memory.jumps`: a line mentions a word that leads to the end of the main function.
-/

namespace PlanCompiler

open Lexeme Scope

/-- The lexemes of a part of the program. -/
def Code.lexemes (code : Code) : List Lexeme := scan .outside code.chars

/-- The lexemes of a line. -/
def Line.lexemes (line : Line) : List Lexeme := line.code.lexemes

namespace Memory

/-- The variable that a line declares. -/
def declared? (line : List Lexeme) : Option (List Char) := (declaration? line).map (·.1)

/-- The variable of a line `T *x = NULL;`. -/
def heapVariable? (line : List Lexeme) : Option (List Char) :=
  match line.reverse with
  | .sign ';' :: .word ['N', 'U', 'L', 'L'] :: .sign '=' :: .word name :: .sign '*' :: _ =>
    some name
  | _ => none

/-- The type and the variable of a line `T x = {0};`. -/
def record? : List Lexeme → Option (List Char × List Char)
  | [.word type, .word name, .sign '=', .sign '\x7b', .word ['0'], .sign '\x7d', .sign ';'] =>
    some (type, name)
  | _ => none

/-- The member of a line `T *m;` in the definition of a type. -/
def member? (line : List Lexeme) : Option (List Char) :=
  match line.reverse with
  | .sign ';' :: .word name :: .sign '*' :: _ => some name
  | _ => none

/-- The line that starts the definition of a type. -/
def typeStart : List Lexeme :=
  [.word ['t', 'y', 'p', 'e', 'd', 'e', 'f'], .word ['s', 't', 'r', 'u', 'c', 't'], .sign '\x7b']

/-- The line that ends the definition of a type. -/
def typeEnd (type : List Char) : List Lexeme := [.sign '\x7d', .word type, .sign ';']

/-- The pointers among the members of a type, if some lines define it. -/
def members? (type : List Char) (lines : List (List Lexeme)) : Option (List (List Char)) :=
  if lines.head? = some typeStart ∧ typeEnd type ∈ lines then
    some ((lines.takeWhile (· ≠ typeEnd type)).filterMap member?)
  else none

/-- The lexemes of the lines of definitions. -/
def definitionLines (definitions : List Definition) : List (List (List Lexeme)) :=
  definitions.map fun definition => definition.lines.map Line.lexemes

/-- The pointers that a line declares: its variable, or members of its variable. -/
def pointers (definitions : List (List (List Lexeme))) (line : List Lexeme) : List (List Lexeme) :=
  (heapVariable? line).toList.map (fun name => [.word name]) ++
    (record? line).toList.flatMap fun (type, name) =>
      (definitions.filterMap (members? type)).flatten.map fun member =>
        [.word name, .sign '.', .word member]

/-- What the calls of `free` release. -/
def frees : List Lexeme → List (List Lexeme)
  | [] => []
  | .word name :: .sign '(' :: rest =>
    if name = ['f', 'r', 'e', 'e'] then rest.takeWhile (· ≠ .sign ')') :: frees rest
    else frees rest
  | _ :: rest => frees rest

/-- The words that lead to the label `kiln_done`, directly or as macros. -/
def jumpWords : List String := ["goto", "KILN_FAIL", "KILN_CHECK", "KILN_RESIZE"]

/-- A line can leave the main function. -/
def jumps (line : List Lexeme) : Bool :=
  line.any fun lexeme => match lexeme with
    | .word chars => jumpWords.contains (String.ofList chars)
    | _ => false

/-- The directives in some lines, without their number signs. Long ones go on over several lines. -/
def directives (lines : List Line) : List (List Lexeme) :=
  (lines.flatMap Line.lexemes).splitOn (.sign '#')

/-! ## Lines that declare pointers, and others -/

variable {line : List Lexeme}

/-- A pointer that is declared as null is found by its name. -/
theorem heapVariable?_append (type : List Lexeme) (name : List Char) :
    heapVariable?
        (type ++ [.sign '*', .word name, .sign '=', .word ['N', 'U', 'L', 'L'], .sign ';']) =
      some name := by
  rw [heapVariable?, List.reverse_append]
  rfl

/-- A line without a star declares no pointer. -/
theorem heapVariable?_eq_none (noStar : .sign '*' ∉ line) : heapVariable? line = none := by
  rw [heapVariable?]
  split
  · rename_i reversed
    refine absurd (List.mem_reverse.1 ?_) noStar
    rw [reversed]
    simp
  · rfl

/-- A line without a brace declares no record. -/
theorem record?_eq_none (noBrace : .sign '\x7b' ∉ line) : record? line = none := by
  unfold record?
  split
  · simp at noBrace
  · rfl

/-- A declared pointer is one place. -/
theorem pointers_of_heapVariable? (definitions : List (List (List Lexeme))) {name : List Char}
    (pointer : heapVariable? line = some name) (noBrace : .sign '\x7b' ∉ line) :
    pointers definitions line = [[.word name]] := by
  rw [pointers, pointer, record?_eq_none noBrace]
  rfl

/-- A declared record has a place for each pointer among its members. -/
theorem pointers_of_record? (definitions : List (List (List Lexeme))) {type name : List Char}
    (noStar : .sign '*' ∉ line) (isRecord : record? line = some (type, name)) :
    pointers definitions line = (definitions.filterMap (members? type)).flatten.map fun member =>
      [.word name, .sign '.', .word member] := by
  rw [pointers, heapVariable?_eq_none noStar, isRecord]
  exact List.flatMap_singleton _ _

/-- A line without stars and braces has no places. -/
theorem pointers_eq_nil (definitions : List (List (List Lexeme))) (noStar : .sign '*' ∉ line)
    (noBrace : .sign '\x7b' ∉ line) : pointers definitions line = [] := by
  rw [pointers, heapVariable?_eq_none noStar, record?_eq_none noBrace]
  rfl

/-- A pointer among the members is found by its name. -/
theorem member?_append (type : List Lexeme) (name : List Char) :
    member? (type ++ [.sign '*', .word name, .sign ';']) = some name := by
  rw [member?, List.reverse_append]
  rfl

/-- A line without a star is no pointer among the members. -/
theorem member?_eq_none (noStar : .sign '*' ∉ line) : member? line = none := by
  rw [member?]
  split
  · rename_i reversed
    refine absurd (List.mem_reverse.1 ?_) noStar
    rw [reversed]
    simp
  · rfl

/-! ## Lines that jump -/

/-- Lexemes in a row jump if either part does. -/
theorem jumps_append (front back : List Lexeme) :
    jumps (front ++ back) = (jumps front || jumps back) := List.any_append

/-- A word that is no jump makes none. -/
theorem jumps_word_eq_false {chars : List Char} (other : String.ofList chars ∉ jumpWords)
    (rest : List Lexeme) : jumps (.word chars :: rest) = jumps rest := by
  rw [jumps, List.any_cons, jumps]
  simp [other]

end Memory

end PlanCompiler
