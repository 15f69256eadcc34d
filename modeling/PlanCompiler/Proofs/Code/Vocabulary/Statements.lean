import PlanCompiler.Proofs.Code.Vocabulary.Basic

/-!
# Statements within a vocabulary

The lines of statements keep within a vocabulary if their code does. Only loops have directives in
front of them, so that the line behind a directive is known as well.

## Main definitions

* `Statement.IsWithin`, `Step.IsWithin`: statements that keep within a vocabulary;
* `Code.AllWithin`: the same for the code of lines, some of which are directives.

## Main results

* `Statement.allWithin_codesOfAll`: the code of statements;
* `Context.isWithin_fill`: statements at an open place.
-/

namespace PlanCompiler

open Lexeme (scan applied)

variable {v : Vocabulary}

/-- A directive, which is the only code with the word of directives. -/
structure Code.IsDirective (v : Vocabulary) (code : Code) : Prop where
  reads : Lexeme.ReadsWithin v code.chars
  starts : Text.isDirective code.chars = true
  silent : applied (scan .outside code.chars) = []

/-- The code of lines that keeps within a vocabulary, where each directive has a loop behind it. -/
inductive Code.AllWithin (v : Vocabulary) : List Code → Prop
  | nil : AllWithin v []
  | cons {code : Code} {rest : List Code} (within : code.IsWithin v) (others : AllWithin v rest) :
    AllWithin v (code :: rest)
  | directed {directive loop : Code} {rest : List Code} (allowed : v.directives)
    (isDirective : directive.IsDirective v) (within : loop.IsWithin v)
    (isLoop : Text.isLoop loop.chars = true) (others : AllWithin v rest) :
    AllWithin v (directive :: loop :: rest)

namespace Code.AllWithin

variable {codes codes' : List Code}

/-- Lines within a vocabulary are so in a row. -/
theorem append (first : AllWithin v codes) (second : AllWithin v codes') :
    AllWithin v (codes ++ codes') := by
  induction first with
  | nil => exact second
  | cons within _ ih => exact .cons within ih
  | directed allowed isDirective within isLoop _ ih =>
    exact .directed allowed isDirective within isLoop ih

/-- Lines without directives are within a vocabulary if each of them is. -/
theorem of_forall (within : AllOf (Code.IsWithin v) codes) : AllWithin v codes := by
  induction codes with
  | nil => exact .nil
  | cons code rest ih =>
    obtain ⟨first, others⟩ := AllOf.cons_iff.1 within
    exact .cons first (ih others)

/-- Lines for some elements are within a vocabulary if those for each are. -/
theorem flatMap {α : Type} {f : α → List Code} {xs : List α}
    (each : ∀ x ∈ xs, AllWithin v (f x)) : AllWithin v (xs.flatMap f) := by
  induction xs with
  | nil => exact .nil
  | cons x rest ih =>
    obtain ⟨first, others⟩ := List.forall_mem_cons.1 each
    rw [List.flatMap_cons]
    exact first.append (ih others)

end Code.AllWithin

/-- The lines that open a block keep within a vocabulary. -/
def Head.IsWithin (v : Vocabulary) : Head → Prop
  | .bare => True
  | .control code => code.IsWithin v
  | .loop directive index start test step =>
    (∀ code ∈ directive, v.directives ∧ code.IsDirective v) ∧ index.IsWithin v ∧ start.IsWithin v ∧
      test.IsWithin v ∧ step.IsWithin v

namespace Head

variable {index : Name} {code : Code}

/-- A bare block's head keeps within any vocabulary. -/
@[simp]
theorem isWithin_bare : bare.IsWithin v := trivial

/-- A control head is within a vocabulary exactly if its code is. -/
@[simp]
theorem isWithin_control : (control code).IsWithin v ↔ code.IsWithin v := .rfl

/-- A loop's head is within a vocabulary exactly if its parts are, and if directives are allowed
where it has one. -/
@[simp]
theorem isWithin_loop {directive : Option Code} {start test step : Code} :
    (loop directive index start test step).IsWithin v ↔
      (∀ code ∈ directive, v.directives ∧ code.IsDirective v) ∧ index.IsWithin v ∧
        start.IsWithin v ∧ test.IsWithin v ∧ step.IsWithin v :=
  .rfl

/-- A counting loop's head is within a vocabulary exactly if its index and its bound are. -/
@[simp]
theorem isWithin_upTo {length : Code} :
    (upTo index length).IsWithin v ↔ index.IsWithin v ∧ length.IsWithin v := by
  simp (disch := first | decide | exact rfl) [upTo]
  tauto

/-- The size of a batch is among the conditional words. -/
theorem isWithin_batches (has : v.words .vectorSize) {total : Code} :
    (batches index total).IsWithin v ↔ index.IsWithin v ∧ total.IsWithin v := by
  simp (disch := first | decide | exact rfl) [batches, Piece.isWithin_text_of_words _ has]
  tauto

/-- The lines of a head within a vocabulary are so. -/
theorem allWithin_codes {head : Head} (within : head.IsWithin v) :
    Code.AllWithin v head.codes := by
  cases head with
  | bare => exact .of_forall (by simp (disch := first | decide | exact rfl) [codes])
  | control code =>
    have plain : code.IsWithin v := within
    exact .of_forall (by simp (disch := first | decide | exact rfl) [codes, plain])
  | loop directive index start test step =>
    obtain ⟨directed, parts⟩ := within
    have loop : ("for (size_t " ++ index ++ " = " ++ start ++ "; " ++ test ++ "; " ++ step ++
        ") \x7b" : Code).IsWithin v := by
      simp (disch := first | decide | exact rfl) [parts]
    cases directive with
    | none => exact .cons loop .nil
    | some directive =>
      obtain ⟨allowed, isDirective⟩ := directed directive rfl
      refine .directed allowed isDirective loop ?_ .nil
      -- the first piece already says that it is a loop
      have first : ("for (size_t " : Code).lexemesByPiece =
          [.word ['f', 'o', 'r'], .sign '(', .word ['s', 'i', 'z', 'e', '_', 't']] :=
        Code.lexemesByPiece_text (rfl : String.ofList
          ['f', 'o', 'r', ' ', '(', 's', 'i', 'z', 'e', '_', 't', ' '] = "for (size_t ")
      refine decide_eq_true ?_
      rw [Code.scan_chars loop.isWhole]
      simp only [Code.lexemesByPiece_append, first, List.append_assoc, List.cons_append,
        List.take_succ_cons, List.take_zero]

end Head

namespace Statement

mutual

/-- The lines of a statement keep within a vocabulary. A block with an alternative does not count,
as there are none outside of the fixed part of a program. -/
def IsWithin (v : Vocabulary) : Statement → Prop
  | .blank => True
  | .line code => code.IsWithin v
  | .control head action => head.IsWithin v ∧ action.IsWithin v
  | .continued first rest => first.IsWithin v ∧ AllOf (Code.IsWithin v) rest
  | .declare specifier name rest => (specifier ++ name ++ rest).IsWithin v
  | .block head body => head.IsWithin v ∧ AllIsWithin v body
  | .branch .. => False

/-- The lines of some statements keep within a vocabulary. -/
def AllIsWithin (v : Vocabulary) : List Statement → Prop
  | [] => True
  | first :: rest => first.IsWithin v ∧ AllIsWithin v rest

end

section

attribute [local simp] IsWithin AllIsWithin

/-- Statements are within a vocabulary exactly if each of them is. -/
theorem allIsWithin_iff {statements : List Statement} :
    AllIsWithin v statements ↔ AllOf (IsWithin v) statements := by
  induction statements with
  | nil => simp
  | cons first rest ih => rw [AllIsWithin, ih, AllOf.cons_iff]

/-- A blank line keeps within any vocabulary. -/
@[simp]
theorem isWithin_blank : blank.IsWithin v := by
  simp

/-- A line is within a vocabulary exactly if its code is. -/
@[simp]
theorem isWithin_line {code : Code} : (line code).IsWithin v ↔ code.IsWithin v := by
  simp

/-- A one-line control statement is within a vocabulary exactly if its head and its action are. -/
@[simp]
theorem isWithin_control {head action : Code} :
    (control head action).IsWithin v ↔ head.IsWithin v ∧ action.IsWithin v := by
  simp

/-- A continued statement is within a vocabulary exactly if all its lines are. -/
@[simp]
theorem isWithin_continued {first : Code} {rest : List Code} :
    (continued first rest).IsWithin v ↔ first.IsWithin v ∧ AllOf (Code.IsWithin v) rest := by
  simp

/-- A declaration is within a vocabulary exactly if its code is, read in one piece. -/
@[simp]
theorem isWithin_declare {specifier : Code} {name : Name} {rest : Code} :
    (declare specifier name rest).IsWithin v ↔ (specifier ++ name ++ rest).IsWithin v := by
  simp

/-- A block is within a vocabulary exactly if its head and its body are. -/
@[simp]
theorem isWithin_block {head : Head} {body : List Statement} :
    (block head body).IsWithin v ↔ head.IsWithin v ∧ AllOf (IsWithin v) body := by
  simp [allIsWithin_iff]

end

mutual

/-- The code of a statement keeps within the vocabulary, and its directives stand in front of
loops. -/
theorem allWithin_codes {statement : Statement} (within : statement.IsWithin v) :
    Code.AllWithin v statement.codes := by
  cases statement with
  | blank => exact .of_forall (by simp [codes])
  | line code => exact .of_forall (by simpa [codes] using within)
  | control head action => exact .of_forall (by simpa [codes] using within)
  | continued first rest => exact .of_forall (by simpa [codes] using within)
  | declare specifier name rest => exact .of_forall (by simpa [codes] using within)
  | block head body =>
    obtain ⟨headWithin, bodyWithin⟩ := isWithin_block.1 within
    rw [codes]
    refine ((Head.allWithin_codes headWithin).append (allWithin_codesOfAll bodyWithin)).append ?_
    exact .of_forall (by simp (disch := first | decide | exact rfl))
  -- a branch is within no vocabulary
  | branch =>
    rw [IsWithin] at within
    exact within.elim

/-- The lines of statements within a vocabulary are so. -/
theorem allWithin_codesOfAll {statements : List Statement}
    (within : AllOf (IsWithin v) statements) : Code.AllWithin v (codesOfAll statements) := by
  cases statements with
  | nil => exact .nil
  | cons first rest =>
    obtain ⟨firstWithin, others⟩ := AllOf.cons_iff.1 within
    rw [codesOfAll]
    exact (allWithin_codes firstWithin).append (allWithin_codesOfAll others)

end

end Statement

/-- The lines of a step keep within a vocabulary. -/
def Step.IsWithin (v : Vocabulary) : Step → Prop
  | .run statement => statement.IsWithin v
  | .enter head => head.IsWithin v

namespace Step

/-- A statement as a step is within a vocabulary exactly if the statement is. -/
@[simp]
theorem isWithin_run {statement : Statement} :
    (run statement).IsWithin v ↔ statement.IsWithin v :=
  .rfl

/-- Entering a block is within a vocabulary exactly if its head is. -/
@[simp]
theorem isWithin_enter {head : Head} : (enter head).IsWithin v ↔ head.IsWithin v := .rfl

end Step

namespace Context

/-- Statements within a vocabulary, at an open place within it. -/
theorem isWithin_fill {context : Context} {statements : List Statement}
    (around : AllOf (Step.IsWithin v) context) (inside : AllOf (Statement.IsWithin v) statements) :
    AllOf (Statement.IsWithin v) (context.fill statements) := by
  induction context with
  | nil => exact inside
  | cons step rest ih =>
    obtain ⟨first, others⟩ := AllOf.cons_iff.1 around
    cases step with
    | run statement => exact AllOf.cons_iff.2 ⟨first, ih others⟩
    | enter head =>
      exact AllOf.cons_iff.2 ⟨Statement.isWithin_block.2 ⟨first, ih others⟩, .nil⟩

/-- The steps that run statements are within a vocabulary exactly if the statements are. -/
@[simp]
theorem allOf_isWithin_runAll {statements : List Statement} :
    AllOf (Step.IsWithin v) (runAll statements) ↔ AllOf (Statement.IsWithin v) statements := by
  simp [runAll, AllOf]

end Context

end PlanCompiler
