import Mathlib.Data.List.Forall2
import PlanCompiler.Proofs.Code.Erasure
import PlanCompiler.Proofs.Code.Lines

/-!
# Programs that differ in the contents of literals

Code is compared by what is left of it when its literals are empty, and statements by their lines.
Statements that are alike stay so inside of blocks, and contexts are alike if they make alike
statements of what is filled in. Closed lines that are alike are the same text once each literal is
replaced by a token.

## Main definitions

* `Statement.Alike`, `Context.Alike`: parts of a program that differ in the contents of their
  literals only.

## Main results

* `Statement.Alike.block`, `Context.Alike.append`: the relations go through blocks and contexts;
* `Spot.erase_linesText_eq`: closed lines that are alike are the same without literals.
-/

namespace PlanCompiler

open Scope (linesText linesOfAll_append linesOfAll_singleton)

/-! ## Code -/

namespace Code

/-- Masking code joined by a separator masks the separator and the parts. -/
@[simp]
theorem masked_separated (separator : Code) (parts : List Code) :
    (separated separator parts).masked = separated separator.masked (parts.map masked) := by
  induction parts with
  | nil => rfl
  | cons part rest ih =>
    cases rest with
    | nil => rfl
    | cons next rest =>
      rw [separated, masked_append, masked_append, ih]
      · rfl
      · exact List.cons_ne_nil next rest

/-- Masking a call masks its arguments. -/
@[simp]
theorem masked_call (function : Name) (arguments : List Code) :
    (call function arguments).masked = call function (arguments.map masked) := by
  simp [call]

/-- Masking a helper's call masks its arguments. -/
@[simp]
theorem masked_help (helper : Helper) (arguments : List Code) :
    (help helper arguments).masked = help helper (arguments.map masked) := by
  simp [help]

end Code

/-! ## Lines -/

/-- The code of a line is closed. -/
def Line.IsClosed (line : Line) : Prop := line.code.IsClosed

/-- A line with empty literals. -/
def Line.masked (line : Line) : Line := { line with code := line.code.masked }

/-- The text of lines in a row. -/
theorem linesText_append (first second : List Line) :
    linesText (first ++ second) = linesText first ++ linesText second :=
  List.flatMap_append

section

variable {token : List Char} {line : Line}

/-- The characters of a line: tabs, code and a line feed. -/
theorem Line.toList_text (line : Line) :
    line.text.toList = List.replicate line.indent '\t' ++ line.code.chars ++ ['\n'] := by
  rw [text, String.toList_append, String.toList_append, String.toList_ofList]
  rfl

/-- The indentation of a line has no quote and no backslash. -/
theorem Line.isPlainChar_of_mem_tabs {c : Char} (member : c ∈ List.replicate line.indent '\t') :
    Spot.IsPlainChar c := by
  rw [List.eq_of_mem_replicate member]
  exact ⟨by decide, by decide⟩

/-- Behind a closed line, the text is outside of literals. -/
theorem Line.IsClosed.after_text (closed : line.IsClosed) :
    Spot.outside.after line.text.toList = .outside := by
  rw [toList_text, Spot.after_append, Spot.after_append,
    Spot.after_of_isPlainChar (fun _ => isPlainChar_of_mem_tabs) rfl,
    Code.after_chars_of_isClosed closed]
  rfl

/-- The text of a line is replaced like its code. -/
theorem Line.IsClosed.erase_text (closed : line.IsClosed) :
    Spot.outside.erase token line.text.toList =
      List.replicate line.indent '\t' ++ Spot.outside.erase token line.code.chars ++ ['\n'] := by
  rw [toList_text, Spot.erase_append, Spot.erase_append, Spot.after_append,
    Spot.after_of_isPlainChar (fun _ => isPlainChar_of_mem_tabs) rfl,
    Spot.erase_outside_of_isPlainChar fun _ => isPlainChar_of_mem_tabs,
    Code.after_chars_of_isClosed closed]
  rfl

/-- Behind closed lines, the text is outside of literals. -/
theorem Spot.after_linesText {lines : List Line} (closed : AllOf Line.IsClosed lines) :
    outside.after (linesText lines) = .outside := by
  induction lines with
  | nil => rfl
  | cons line rest ih =>
    obtain ⟨first, others⟩ := AllOf.cons_iff.1 closed
    rw [linesText, List.flatMap_cons, after_append, first.after_text]
    exact ih others

/-- Closed lines that differ in the contents of literals only are the same without literals. -/
theorem Spot.erase_linesText_eq {lines lines' : List Line} (closed : AllOf Line.IsClosed lines)
    (closed' : AllOf Line.IsClosed lines') (same : lines.map Line.masked = lines'.map Line.masked) :
    outside.erase token (linesText lines) = outside.erase token (linesText lines') := by
  -- each line ends outside of literals, so the next one is erased from there
  induction lines generalizing lines' with
  | nil =>
    obtain rfl := List.map_eq_nil_iff.1 same.symm
    rfl
  | cons line rest ih =>
    obtain ⟨line', rest', rfl, sameLine, sameRest⟩ := List.map_eq_cons_iff.1 same.symm
    obtain ⟨first, others⟩ := AllOf.cons_iff.1 closed
    obtain ⟨first', others'⟩ := AllOf.cons_iff.1 closed'
    obtain ⟨indent, code⟩ := Line.mk.inj sameLine
    have erased : outside.erase token line.code.chars = outside.erase token line'.code.chars :=
      Code.erase_chars_eq_of_masked_eq first first' code.symm
    rw [linesText, linesText, List.flatMap_cons, List.flatMap_cons, erase_append, erase_append,
      first.after_text, first'.after_text, first.erase_text, first'.erase_text, indent, erased]
    exact congrArg _ (ih others others' sameRest.symm)

end

/-! ## Statements -/

/-- Heads of blocks that differ in the contents of literals only. -/
def Head.Alike (head head' : Head) : Prop :=
  ∀ indent, (head.lines indent).map Line.masked = (head'.lines indent).map Line.masked

/-- Every head is alike to itself. -/
theorem Head.Alike.refl (head : Head) : head.Alike head := fun _ => rfl

/-- Control heads are alike if their masked code is the same. -/
theorem Head.Alike.control {code code' : Code} (same : code.masked = code'.masked) :
    (Head.control code).Alike (.control code') := by
  intro indent
  simp [Head.lines, Line.masked, same]

namespace Statement

/-- Statements that differ in the contents of literals only. -/
def Alike (statements statements' : List Statement) : Prop :=
  ∀ indent, (linesOfAll indent statements).map Line.masked =
    (linesOfAll indent statements').map Line.masked

namespace Alike

variable {as as' bs bs' : List Statement} {code code' action action' : Code}

/-- Statements are alike to themselves. -/
theorem refl (statements : List Statement) : Alike statements statements := fun _ => rfl

/-- Alike statements in a row are alike. -/
theorem append (first : Alike as as') (second : Alike bs bs') : Alike (as ++ bs) (as' ++ bs') := by
  intro indent
  rw [linesOfAll_append, linesOfAll_append, List.map_append, List.map_append, first, second]

/-- Statements are alike if the first ones and the others are. -/
theorem cons {a a' : Statement} (first : Alike [a] [a']) (rest : Alike bs bs') :
    Alike (a :: bs) (a' :: bs') :=
  first.append rest

/-- Lines are alike if their masked code is the same. -/
theorem line (same : code.masked = code'.masked) : Alike [.line code] [.line code'] := by
  intro indent
  simp [linesOfAll_singleton, lines, Line.masked, same]

/-- One-line control statements are alike if their masked heads and actions are the same. -/
theorem control (same : code.masked = code'.masked) (sameAction : action.masked = action'.masked) :
    Alike [.control code action] [.control code' action'] := by
  intro indent
  simp [linesOfAll_singleton, lines, Line.masked, same, sameAction]

/-- Declarations of one name are alike if the masked rest is the same. -/
theorem declare (specifier : Code) (name : Name) (same : code.masked = code'.masked) :
    Alike [.declare specifier name code] [.declare specifier name code'] := by
  intro indent
  simp [linesOfAll_singleton, lines, Line.masked, same]

/-- Blocks are alike if their heads and their bodies are. -/
theorem block {head head' : Head} (heads : head.Alike head') (inside : Alike as as') :
    Alike [.block head as] [.block head' as'] := by
  intro indent
  simp only [linesOfAll_singleton, lines, List.map_append, heads indent, inside (indent + 1)]

section

variable {α : Type} {R : α → α → Prop} {xs ys : List α} (related : List.Forall₂ R xs ys)
include related

/-- Statements for the members of two lists, one by one. -/
theorem flatMap {f : α → List Statement} (each : ∀ x y, R x y → Alike (f x) (f y)) :
    Alike (xs.flatMap f) (ys.flatMap f) := by
  induction related with
  | nil => exact .refl []
  | cons first _ ih => exact (each _ _ first).append ih

/-- Statements made of related elements are alike if each is made alike. -/
theorem map {f : α → Statement} (each : ∀ x y, R x y → Alike [f x] [f y]) :
    Alike (xs.map f) (ys.map f) := by
  rw [List.map_eq_flatMap, List.map_eq_flatMap]
  exact flatMap related each

end

end Alike

end Statement

/-! ## Contexts -/

namespace Context

/-- Contexts that make alike statements of what is filled in. -/
def Alike (context context' : Context) : Prop :=
  ∀ statements statements', Statement.Alike statements statements' →
    Statement.Alike (context.fill statements) (context'.fill statements')

namespace Alike

variable {first first' second second' : Context}

/-- Every context is alike to itself. -/
theorem refl (context : Context) : context.Alike context := by
  intro statements statements' inside
  induction context with
  | nil => exact inside
  | cons step rest ih =>
    cases step with
    | run statement => exact .cons (.refl [statement]) ih
    | enter head => exact .block (.refl head) ih

/-- Alike contexts in a row are alike. -/
theorem append (before : Alike first first') (after : Alike second second') :
    Alike (first ++ second) (first' ++ second') := by
  intro statements statements' inside
  rw [fill_append, fill_append]
  exact before _ _ (after _ _ inside)

/-- The steps that run alike statements are alike. -/
theorem runAll {statements statements' : List Statement}
    (same : Statement.Alike statements statements') :
    Alike (Context.runAll statements) (Context.runAll statements') := by
  intro later later' inside
  rw [fill_runAll, fill_runAll]
  exact same.append inside

/-- A statement as a step is alike to an alike statement. -/
theorem run {statement statement' : Statement} (same : Statement.Alike [statement] [statement']) :
    Alike [.run statement] [.run statement'] :=
  .runAll same

/-- Entering blocks with alike heads is alike. -/
theorem enter {head head' : Head} (same : head.Alike head') : Alike [.enter head] [.enter head'] :=
  fun _ _ inside => .block same inside

end Alike

end Context

end PlanCompiler
