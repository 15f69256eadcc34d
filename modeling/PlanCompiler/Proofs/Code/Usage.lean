import PlanCompiler.Program.Basic
import PlanCompiler.Proofs.Code.Seams
import PlanCompiler.Proofs.Text.Blank

/-!
# What a text uses and what it defines

Some words only occur in the programs of some requests. The functions of a program have to be
defined before they are called, since the compiler reads the text once, and a directive speaks of
the loop on the line behind it. All of this can be seen in the lexemes of a text and in its lines.

## Main definitions

* `ConditionalWord`: the words that only some programs have, and which programs these are;
* `Text.Mentions`: a text has a word outside of its string literals;
* `Text.uses`, `Text.DefinesInOrder`: every function is defined before it is called, and once;
* `Text.DirectivesLead`: every directive stands in front of a loop.

## Main results

* `Lexeme.applied_append`: the functions that are called in texts that are put together;
* `Text.DefinesInOrder.append`, `Text.DirectivesLead.append`: lines behind other lines.
-/

namespace PlanCompiler

open Lexeme (scan after)

/-! ## Words -/

/-- Words that only some programs have. -/
inductive ConditionalWord where
  /-- The variable that records a fault. -/
  | fault
  /-- The function that divides and records a fault. -/
  | divide
  /-- The number of rows of the result. -/
  | count
  /-- The function that prints a row of the result. -/
  | printRow
  /-- The time at the start. -/
  | started
  /-- The time when the tables are loaded. -/
  | loaded
  /-- The number of rows in a batch. -/
  | vectorSize
deriving DecidableEq, Repr

namespace ConditionalWord

/-- Spelling of a word. -/
def text : ConditionalWord → String
  | .fault => "kiln_fault"
  | .divide => "kiln_idiv"
  | .count => "kiln_count"
  | .printRow => "kiln_print_row"
  | .started => "kiln_started"
  | .loaded => "kiln_loaded"
  | .vectorSize => "KILN_VECTOR_SIZE"

/-- The characters of a word. -/
def chars : ConditionalWord → List Char
  | .fault => ['k', 'i', 'l', 'n', '_', 'f', 'a', 'u', 'l', 't']
  | .divide => ['k', 'i', 'l', 'n', '_', 'i', 'd', 'i', 'v']
  | .count => ['k', 'i', 'l', 'n', '_', 'c', 'o', 'u', 'n', 't']
  | .printRow => ['k', 'i', 'l', 'n', '_', 'p', 'r', 'i', 'n', 't', '_', 'r', 'o', 'w']
  | .started => ['k', 'i', 'l', 'n', '_', 's', 't', 'a', 'r', 't', 'e', 'd']
  | .loaded => ['k', 'i', 'l', 'n', '_', 'l', 'o', 'a', 'd', 'e', 'd']
  | .vectorSize => ['K', 'I', 'L', 'N', '_', 'V', 'E', 'C', 'T', 'O', 'R', '_', 'S', 'I', 'Z', 'E']

/-- A conditional word is spelled by its characters. -/
theorem toList_text (word : ConditionalWord) : word.text.toList = word.chars := by
  cases word <;> exact toList_of_spelled rfl

/-- All of the words. -/
def all : List ConditionalWord :=
  [.fault, .divide, .count, .printRow, .started, .loaded, .vectorSize]

/-- The list of conditional words is complete. -/
theorem mem_all (word : ConditionalWord) : word ∈ all := by
  cases word <;> decide

/-- The programs that have a word: those with checks, those that count rows and those that print
them, those that report times, and those that handle rows in batches. -/
def isFor (request : Request) : ConditionalWord → Bool
  | .fault | .divide => Program.isChecked request
  | .count => request.has .countOnly
  | .printRow => !request.has .countOnly
  | .started | .loaded => request.has .profile
  | .vectorSize => request.stage = .vectorised

end ConditionalWord

/-- A text has a word outside of its string literals. -/
def Text.Mentions (text word : String) : Prop := .word word.toList ∈ scan .outside text.toList

/-! ## Functions -/

namespace Lexeme

/-- The characters of a word that starts with `kiln_`. -/
def ownWord? : Lexeme → Option (List Char)
  | .word chars => if ['k', 'i', 'l', 'n', '_'].isPrefixOf chars then some chars else none
  | .literal | .sign _ => none

/-- The own words in front of a parenthesis. -/
def applied : List Lexeme → List (List Char)
  | [] => []
  | first :: rest =>
    (if rest.head? = some (.sign '(') then first.ownWord?.toList else []) ++ applied rest

variable {front back : List Lexeme}

/-- Lexemes that are put together, unless a parenthesis comes to stand behind an own word. -/
theorem applied_append
    (seam : back.head? = some (.sign '(') → ∀ last ∈ front.getLast?, last.ownWord? = none) :
    applied (front ++ back) = applied front ++ applied back := by
  induction front with
  | nil => rfl
  | cons first rest ih =>
    cases rest with
    | nil =>
      -- the seam decides whether the last word is applied
      have here : (if back.head? = some (.sign '(') then first.ownWord?.toList else []) = [] := by
        split
        · rename_i opens
          rw [seam opens first rfl]
          rfl
        · rfl
      rw [List.singleton_append, applied, here]
      rfl
    | cons next rest =>
      have others := ih fun opens last found => seam opens last (by
        rwa [List.getLast?_cons_cons])
      show _ ++ applied (next :: rest ++ back) = _ ++ applied (next :: rest) ++ _
      rw [others, List.append_assoc]
      rfl

/-- What is applied is one of the words. -/
theorem mem_of_mem_applied {lexemes : List Lexeme} {chars : List Char}
    (member : chars ∈ applied lexemes) : ∃ lexeme ∈ lexemes, lexeme.ownWord? = some chars := by
  induction lexemes with
  | nil => cases member
  | cons first rest ih =>
    rw [applied] at member
    rcases List.mem_append.1 member with member | member
    · split at member
      · exact ⟨first, List.mem_cons_self, Option.mem_toList.1 member⟩
      · cases member
    · obtain ⟨lexeme, found, own⟩ := ih member
      exact ⟨lexeme, List.mem_cons_of_mem _ found, own⟩

end Lexeme

namespace Text

/-- A function whose name stands in front of a parenthesis. -/
structure Use where
  /-- The name. -/
  function : List Char
  /-- The line is the heading of a definition: on the next one there is only an opening brace. -/
  defines : Bool
deriving DecidableEq, Repr

/-- The functions that some lines call or define, whose names start with `kiln_`. -/
def uses : List (List Char) → List Use
  | [] => []
  | line :: rest =>
    (Lexeme.applied (scan .outside line)).map (fun function =>
      { function, defines := rest.head? = some ['\x7b'] }) ++ uses rest

/-- A function is called if it is known, and it is known once it has been defined, which happens
once. -/
def DefinesInOrder (known : List (List Char)) : List Use → Prop
  | [] => True
  | use :: rest =>
    if use.defines then use.function ∉ known ∧ DefinesInOrder (known ++ [use.function]) rest
    else use.function ∈ known ∧ DefinesInOrder known rest

/-- Within its own definition a function is known, and in those behind it, but not before. -/
example :
    uses (lines "int kiln_f(int a)\n\x7b\n\tkiln_f(1);\n\x7d\nkiln_g(\"kiln_h(\");\n".toList) =
      [⟨"kiln_f".toList, true⟩, ⟨"kiln_f".toList, false⟩, ⟨"kiln_g".toList, false⟩] := by
  decide +kernel

/-- The functions that are defined. -/
def defined (uses : List Use) : List (List Char) :=
  (uses.filter Use.defines).map Use.function

section

variable {known : List (List Char)} {front back : List Use}

/-- Uses in a row are in order if the second ones may rely on the first. -/
theorem DefinesInOrder.append (first : DefinesInOrder known front)
    (second : DefinesInOrder (known ++ defined front) back) :
    DefinesInOrder known (front ++ back) := by
  -- the functions that are known grow by each definition on the way
  induction front generalizing known with
  | nil => rwa [defined, List.filter_nil, List.map_nil, List.append_nil] at second
  | cons use rest ih =>
    rw [List.cons_append, DefinesInOrder]
    rw [DefinesInOrder] at first
    split at first
    · rename_i defines
      rw [if_pos defines]
      refine ⟨first.1, ih first.2 ?_⟩
      rwa [defined, List.filter_cons_of_pos defines, List.map_cons, ← List.singleton_append,
        ← List.append_assoc] at second
    · rename_i calls
      rw [if_neg calls]
      refine ⟨first.1, ih first.2 ?_⟩
      rwa [defined, List.filter_cons_of_neg calls] at second

/-- Nothing is defined, and what is called is known. -/
theorem DefinesInOrder.of_forall
    (calls : ∀ use ∈ front, use.defines = false ∧ use.function ∈ known) :
    DefinesInOrder known front := by
  induction front with
  | nil => trivial
  | cons use rest ih =>
    obtain ⟨⟨noDefinition, isKnown⟩, others⟩ := List.forall_mem_cons.1 calls
    rw [DefinesInOrder, noDefinition]
    exact ⟨isKnown, ih others⟩

/-- What is defined by uses in a row. -/
theorem defined_append (front back : List Use) :
    defined (front ++ back) = defined front ++ defined back := by
  rw [defined, List.filter_append, List.map_append, defined, defined]

/-- Calls define nothing. -/
theorem defined_of_forall (calls : ∀ use ∈ front, use.defines = false) : defined front = [] := by
  rw [defined, List.filter_eq_nil_iff.2 fun use member => by simp [calls use member], List.map_nil]

end

variable {front back : List (List Char)}

/-- Lines behind others add their own uses, unless they start with an opening brace. -/
theorem uses_append (begins : back.head? ≠ some ['\x7b']) :
    uses (front ++ back) = uses front ++ uses back := by
  induction front with
  | nil => rfl
  | cons line rest ih =>
    have same : decide ((rest ++ back).head? = some ['\x7b']) =
        decide (rest.head? = some ['\x7b']) := by
      cases rest with
      | nil => simpa using begins
      | cons next rest => rfl
    rw [List.cons_append, uses, uses, ih, same, List.append_assoc]

/-- No line is a heading if none is an opening brace. -/
theorem defines_eq_false_of_mem_uses (noBrace : ['\x7b'] ∉ front.tail) {use : Use}
    (member : use ∈ uses front) : use.defines = false := by
  induction front with
  | nil => cases member
  | cons line rest ih =>
    rw [uses] at member
    rcases List.mem_append.1 member with member | member
    · obtain ⟨function, -, rfl⟩ := List.mem_map.1 member
      cases rest with
      | nil => rfl
      | cons next rest =>
        exact decide_eq_false fun same => noBrace (Option.some.inj same ▸ List.mem_cons_self)
    · refine ih (fun brace => noBrace (List.mem_of_mem_tail brace)) member

/-- A use stands in one of the lines. -/
theorem exists_of_mem_uses {use : Use} (member : use ∈ uses front) :
    ∃ line ∈ front, use.function ∈ Lexeme.applied (scan .outside line) := by
  induction front with
  | nil => cases member
  | cons line rest ih =>
    rw [uses] at member
    rcases List.mem_append.1 member with member | member
    · obtain ⟨function, found, rfl⟩ := List.mem_map.1 member
      exact ⟨line, List.mem_cons_self, found⟩
    · obtain ⟨line, found, inside⟩ := ih member
      exact ⟨line, List.mem_cons_of_mem _ found, inside⟩

/-! ## Directives -/

/-- The word of directives. -/
def pragmaWord : List Char := ['p', 'r', 'a', 'g', 'm', 'a']

/-- A line is a directive for the compiler. -/
def isDirective (line : List Char) : Bool :=
  (scan .outside line).take 2 = [.sign '#', .word pragmaWord]

/-- A line starts a loop. -/
def isLoop (line : List Char) : Bool :=
  (scan .outside line).take 2 = [.word ['f', 'o', 'r'], .sign '(']

/-- There are directives under a condition only, and each one has a loop on the next line. -/
def DirectivesLead (condition : Prop) : List (List Char) → Prop
  | [] => True
  | line :: rest =>
    (isDirective line = true → condition ∧ ∃ next ∈ rest.head?, isLoop next = true) ∧
      DirectivesLead condition rest

variable {condition : Prop}

/-- Directives lead in lines in a row if they lead in both parts. -/
theorem DirectivesLead.append (first : DirectivesLead condition front)
    (second : DirectivesLead condition back) : DirectivesLead condition (front ++ back) := by
  induction front with
  | nil => exact second
  | cons line rest ih =>
    refine ⟨fun directive => ?_, ih first.2⟩
    obtain ⟨holds, next, found, loop⟩ := first.1 directive
    refine ⟨holds, next, ?_, loop⟩
    cases rest with
    | nil => cases found
    | cons next' rest => exact found

/-- Without directives, none is out of place. -/
theorem DirectivesLead.of_forall (none : ∀ line ∈ front, isDirective line = false) :
    DirectivesLead condition front := by
  induction front with
  | nil => trivial
  | cons line rest ih =>
    obtain ⟨first, others⟩ := List.forall_mem_cons.1 none
    exact ⟨fun directive => absurd (first.symm.trans directive) nofun, ih others⟩

/-- A line that does not have the word of directives is none. -/
theorem isDirective_eq_false {line : List Char} (silent : .word pragmaWord ∉ scan .outside line) :
    isDirective line = false := by
  refine decide_eq_false fun starts => silent ?_
  exact List.mem_of_mem_take (starts ▸ List.mem_cons_of_mem _ List.mem_cons_self)

end Text

end PlanCompiler
