import PlanCompiler.Program.Basic
import PlanCompiler.Proofs.Code.Alike
import PlanCompiler.Proofs.Lowering.CallSites.Batches

/-!
# The lines of programs

A program has a checked division for each integer division of its plan. Its pipelines have these;
the fixed part only defines the function, and nothing else mentions it. No line of it ends inside of
a string literal, but some lines of the fixed part end with a backslash, so that these are gone
through as a whole.

## Main definitions

* `Program.ownLines`: the lines of a program behind its fixed part.

## Main results

* `Program.callSites_preamble_append`, `Program.after_preamble`: the fixed part of a program;
* `Plan.gives_haveSites_ownLines`: the number of checked divisions in the other lines;
* `Plan.gives_isClosed_program`: none of these ends inside of a string literal.
-/

namespace PlanCompiler

open Lexeme (scan after)
open Scope (linesText)
open Statement (codesOfAll)

/-- Lines whose checked divisions are known end outside of string literals. -/
theorem Code.HaveSites.isClosed {lines : List Line} {n : Nat}
    (counted : HaveSites (lines.map Line.code) n) : AllOf Line.IsClosed lines :=
  fun line member => counted.closed line.code (List.mem_map_of_mem member)

/-! ## Pipelines of plans -/

namespace Plan

variable (plan : Plan) (checked countOnly simd : Bool)

/-- The tables of a plan have quiet sections. -/
theorem isQuiet_tableSections : plan.tableSections.IsQuiet := by
  refine .concat (List.forall_mem_map.2 fun (node, position) _ => ?_)
  cases node with
  | scan table columns => exact Table.isQuiet_sections position table columns
  | filter | project | join | aggregate => exact .empty

/-- The row printer has a quiet section, if there is one. -/
theorem isQuiet_printer :
    (if countOnly then {} else { definitions := [RowPrinter.definition plan.outputSchema] } :
      Sections).IsQuiet := by
  split
  · exact .empty
  · exact ⟨AllOf.cons_iff.2 ⟨RowPrinter.isQuiet_definition _, .nil⟩, .nil, .nil, .nil⟩

/-- The check behind the nodes is quiet. -/
theorem isQuiet_check :
    AllOf Statement.IsQuiet (if checked then [.line "KILN_CHECK(!kiln_fault);"] else []) :=
  .ite (by simp (disch := first | decide | exact rfl)) .nil

/-- The row-by-row body has the checked divisions of the plan, and its sections have none. -/
theorem gives_haveSites_lowerScalar :
    Gives (plan.lowerScalar checked countOnly) fun (sections, body) => sections.IsQuiet ∧
      Code.HaveSites (codesOfAll body) (plan.tree.checkedDivisions checked) := by
  refine (PlanTree.gives_hasSites_rows checked plan.wellTyped_tree).bind fun pipeline counted =>
    .ok ⟨?_, ?_⟩
  · exact (plan.isQuiet_tableSections.append (plan.isQuiet_printer countOnly)).append
      counted.sections
  · refine counted.close (AllOf.append_iff.2 ⟨isQuiet_check checked, AllOf.cons_iff.2 ⟨?_, .nil⟩⟩)
    split
    · simp (disch := first | decide | exact rfl)
    · exact RowPrinter.isQuiet_print (AllOf.map_iff.2 counted.output)

/-- The batch-by-batch body has the checked divisions of the plan, and its sections have none. -/
theorem gives_haveSites_lowerVectorised :
    Gives (plan.lowerVectorised checked countOnly simd) fun (sections, body) => sections.IsQuiet ∧
      Code.HaveSites (codesOfAll body) (plan.tree.checkedDivisions checked) := by
  refine (PlanTree.gives_hasSites_batches checked simd plan.wellTyped_tree).bind
    fun pipeline counted => .ok ⟨?_, ?_⟩
  · exact (plan.isQuiet_tableSections.append (plan.isQuiet_printer countOnly)).append
      counted.sections
  · refine counted.close (AllOf.append_iff.2 ⟨isQuiet_check checked, AllOf.cons_iff.2 ⟨?_, .nil⟩⟩)
    split
    · simp (disch := first | decide | exact rfl) [counted.output.length]
    · have row := counted.output.row Name.isQuiet_resultRow
      have print := RowPrinter.isQuiet_print (AllOf.map_iff.2 row)
      exact counted.output.loop Name.isQuiet_resultRow (AllOf.cons_iff.2 ⟨print, .nil⟩)

end Plan

/-! ## The fixed part -/

namespace Support

/-- The code of plain lines is their texts. -/
@[simp]
theorem map_code_plainLines (texts : List String) :
    (plainLines texts).map Line.code = texts.map fun (text : String) => (text : Code) := by
  rw [plainLines, List.map_map]
  rfl

/-- The lines that include headers are quiet. -/
theorem isQuiet_includes : AllOf Code.IsQuiet (includes.map Line.code) := by
  simp (disch := first | decide | exact rfl) [includes]

/-- The lines that define status codes are quiet. -/
theorem isQuiet_statusCodes : AllOf Code.IsQuiet (statusCodes.map Line.code) := by
  simp (disch := first | decide | exact rfl) [statusCodes]

/-- The lines that define the check macro are quiet. -/
theorem isQuiet_checkMacro (checked : Bool) :
    AllOf Code.IsQuiet ((checkMacro checked).map Line.code) := by
  cases checked <;> simp (disch := first | decide | exact rfl) [checkMacro]

/-- The hash functions are quiet. -/
theorem isQuiet_hashing : AllOf Definition.IsQuiet hashing := by
  simp (disch := first | decide | exact rfl) [hashing, helper, commented]

/-- The pattern matcher is quiet. -/
theorem isQuiet_matching : matching.IsQuiet := by
  simp (disch := first | decide | exact rfl) [matching, commented]

/-- The helpers for tables are quiet. -/
theorem isQuiet_tables : AllOf Definition.IsQuiet tables := by
  simp (disch := first | decide | exact rfl) [tables, helper, commented]

/-- The helpers for dates are quiet. -/
theorem isQuiet_dates : AllOf Definition.IsQuiet dates := by
  simp (disch := first | decide | exact rfl) [dates, helper, commented]

/-- The readers of fields are quiet. -/
theorem isQuiet_fields : AllOf Definition.IsQuiet fields := by
  simp (disch := first | decide | exact rfl) [fields, helper, commented]

/-- The readers of lines are quiet. -/
theorem isQuiet_lines : AllOf Definition.IsQuiet lines := by
  simp (disch := first | decide | exact rfl) [lines, commented]

/-- All helpers without the checked division are quiet. -/
theorem isQuiet_helpers : AllOf Definition.IsQuiet helpers := by
  have groups := And.intro isQuiet_tables (And.intro isQuiet_dates
    (And.intro isQuiet_fields isQuiet_lines))
  exact AllOf.append_iff.2 ⟨isQuiet_hashing, AllOf.cons_iff.2 ⟨isQuiet_matching, by
    simpa [and_assoc] using groups⟩⟩

/-- The function for checked divisions is declared with its type in front of its name, and it does
not call itself. -/
theorem haveSites_checkedDivision :
    Code.HaveSites (checkedDivision.flatMap Definition.codes) 0 := by
  have name : (Piece.name (.helper .divide)).IsWhole :=
    Piece.isWhole_name (Name.isIdentifier_of_ne rfl)
  have whole : ("static inline int64_t" ++ " " ++ Name.helper .divide ++ "(" ++
      .separated ", " ["int64_t a", "int64_t b"] ++ ")" : Code).IsWhole := by
    simp (disch := first | decide | exact rfl) [Code.separated, name]
  have declared : ("static inline int64_t" ++ " " ++ Name.helper .divide ++ "(" ++
      .separated ", " ["int64_t a", "int64_t b"] ++ ")" : Code).sites = 0 := by
    decide +kernel
  have fault : AllOf Code.IsQuiet (Definition.global "static int kiln_fault;").codes := by
    simp (disch := first | decide | exact rfl)
  -- the header is the only line that has the name in it
  rw [checkedDivision, List.flatMap_cons, List.flatMap_singleton, helper, commented,
    Definition.codes_function]
  refine .append_left fault (.cons_of_isQuiet whole declared ?_)
  simp (disch := first | decide | exact rfl) [Statement.codes, Head.codes]

end Support

/-! ## Programs -/

namespace Program

variable (program : Program)

/-- The code of the lines of some definitions. -/
theorem map_code_flatMap_lines (definitions : List Definition) :
    (definitions.flatMap Definition.lines).map Line.code = definitions.flatMap Definition.codes :=
  List.map_flatMap ..

/-- The code of quiet definitions is quiet. -/
theorem allOf_flatMap_codes {definitions : List Definition}
    (quiet : AllOf Definition.IsQuiet definitions) :
    AllOf Code.IsQuiet (definitions.flatMap Definition.codes) :=
  AllOf.flatMap_iff.2 quiet

/-- The line on top of a program names the request. -/
theorem isQuiet_title (stage : Stage) (flags : Flags) :
    (Piece.text ("/* Generated by kiln: " ++ stage.name ++ " stage, flags " ++ flags.text ++
      " */")).IsQuiet := by
  have stageName {c : Char} (other : c = '"' ∨ c = '\\' ∨ c = '_') : c ∉ stage.name.toList := by
    obtain rfl | rfl | rfl := other <;> cases stage <;> decide
  have digits {c : Char} (other : c = '"' ∨ c = '\\' ∨ c = '_') :
      c ∉ Nat.toDigits 16 flags.bits.toNat := by
    intro member
    obtain ⟨digit, -, rfl⟩ := Numeral.exists_digitChar_of_mem_toDigits (by decide) member
    obtain same | same | same := other <;> exact Nat.digitChar_ne _ (by decide) same
  -- the line has a `k`, so it is an underscore that it lacks
  refine Piece.isQuiet_of_notMem_underscore (by simp) ?_ ?_ ?_ <;>
    simp [Flags.text, Numeral.hex, Numeral.inBase, stageName, digits]

/-- The fixed part of a program has no checked divisions. The macros in it end with backslashes, but
what stands in front of them and behind them can be read line by line. -/
theorem exists_preamble_eq : ∃ front back,
    program.preamble = front ++ Support.controlMacros ++ back ∧
      Code.HaveSites (front.map Line.code) 0 ∧ Code.HaveSites (back.map Line.code) 0 := by
  have title : AllOf Code.IsQuiet ((Support.plainLines ["/* Generated by kiln: " ++
      program.request.stage.name ++ " stage, flags " ++ program.request.flags.text ++
        " */"]).map Line.code) :=
    AllOf.cons_iff.2 ⟨Code.isMadeOf_text.2 (isQuiet_title _ _), .nil⟩
  have vectorSize : AllOf Code.IsQuiet ((if program.request.stage = .vectorised then
      Support.plainLines ["#define KILN_VECTOR_SIZE " ++ toString program.vectorSize]
      else []).map Line.code) := by
    split
    · simp (disch := simp) [Piece.isQuiet_of_notMem_k]
    · exact .nil
  have blank : AllOf Code.IsQuiet ([Line.blank].map Line.code) := by simp [Line.blank]
  have division : Code.HaveSites ((if isChecked program.request then Support.checkedDivision
      else []).flatMap Definition.codes) 0 := by
    split
    · exact Support.haveSites_checkedDivision
    · exact .nil
  have helpers := allOf_flatMap_codes Support.isQuiet_helpers
  -- the macros stand between the parts, as the only ones whose lines go on
  refine ⟨_, _, by rw [preamble, List.append_assoc, List.append_assoc], .of_isQuiet ?_, ?_⟩
  · simp only [List.map_append, AllOf.append_iff, title, blank, Support.isQuiet_includes,
      Support.isQuiet_statusCodes, vectorSize, and_self]
  · rw [List.map_append, List.map_append, map_code_flatMap_lines, List.flatMap_append]
    exact .append_left (Support.isQuiet_checkMacro _)
      (.append_left blank (division.append_right helpers))

/-- The fixed part of a program ends outside of string literals. -/
theorem after_preamble : Spot.outside.after (linesText program.preamble) = .outside := by
  obtain ⟨front, back, preamble, frontCounted, backCounted⟩ := program.exists_preamble_eq
  have macros : Spot.outside.after (linesText Support.controlMacros) = .outside := by
    decide +kernel
  rw [preamble, linesText_append, linesText_append, Spot.after_append, Spot.after_append,
    Spot.after_linesText frontCounted.isClosed, macros, Spot.after_linesText backCounted.isClosed]

/-- It adds no call sites to those of the lines behind it. -/
theorem callSites_preamble_append (rest : List Char) :
    Lexeme.callSites divideWord false (scan .outside (linesText program.preamble ++ rest)) =
      Lexeme.callSites divideWord false (scan .outside rest) := by
  obtain ⟨front, back, preamble, frontCounted, backCounted⟩ := program.exists_preamble_eq
  have outside : ∀ line ∈ Support.controlMacros, after .outside line.code.chars = .outside := by
    decide +kernel
  have silent : (Support.controlMacros.map fun line => Lexeme.callSites divideWord false
      (scan .outside line.code.chars)).sum = 0 := by
    decide +kernel
  rw [preamble, linesText_append, linesText_append, List.append_assoc, List.append_assoc,
    frontCounted.callSites_linesText_append, Scope.callSites_linesText_append outside, silent,
    backCounted.callSites_linesText_append, Nat.zero_add, Nat.zero_add, Nat.zero_add]

/-! ## The lines of the plan -/

/-- The lines behind the fixed part. -/
def ownLines : List Line :=
  program.sections.definitions.flatMap Definition.lines ++ program.runMain ++ standaloneMain

/-- The text of a program is that of its fixed part and of the other lines. -/
theorem toList_text :
    program.text.toList = linesText program.preamble ++ linesText program.ownLines := by
  have split : program.lines = program.preamble ++ program.ownLines := by
    rw [lines, ownLines, List.append_assoc, List.append_assoc, List.append_assoc]
  rw [text, String.toList_join, List.flatMap_map, split]
  exact linesText_append _ _

/-- The variables of every main function are quiet. -/
theorem isQuiet_standardVariables : AllOf Statement.IsQuiet program.standardVariables := by
  have counting : AllOf Statement.IsQuiet
      (if program.request.has .countOnly then [.line "int64_t kiln_count = 0;"] else []) :=
    .ite (by simp (disch := first | decide | exact rfl)) .nil
  have profiling : AllOf Statement.IsQuiet (if program.request.has .profile then
      [.line "clock_t kiln_started = clock();", .line "clock_t kiln_loaded = kiln_started;"]
      else []) :=
    .ite (by simp (disch := first | decide | exact rfl)) .nil
  refine AllOf.append_iff.2 ⟨AllOf.append_iff.2 ⟨?_, counting⟩, profiling⟩
  simp (disch := first | decide | exact rfl)

/-- The end of the main function is quiet. -/
theorem isQuiet_finish : AllOf Statement.IsQuiet program.finish := by
  refine AllOf.append_iff.2 ⟨AllOf.append_iff.2 ⟨?_, ?_⟩, ?_⟩
  all_goals
    refine .ite ?_ .nil
    simp (disch := first | decide | exact rfl)

variable {program} (quiet : program.sections.IsQuiet)
include quiet

/-- The start of the main function is quiet. -/
theorem isQuiet_start : AllOf Statement.IsQuiet program.start := by
  have checks : AllOf Statement.IsQuiet
      (if isChecked program.request then [.line "kiln_fault = 0;"] else []) :=
    .ite (by simp (disch := first | decide | exact rfl)) .nil
  have profiling : AllOf Statement.IsQuiet
      (if program.request.has .profile then [.line "kiln_loaded = clock();"] else []) :=
    .ite (by simp (disch := first | decide | exact rfl)) .nil
  refine AllOf.append_iff.2 ⟨AllOf.append_iff.2 ⟨?_, checks⟩, AllOf.cons_iff.2 ⟨?_,
    AllOf.append_iff.2 ⟨quiet.setup, profiling⟩⟩⟩
  all_goals simp (disch := first | decide | exact rfl)

/-- The release of memory is quiet. -/
theorem isQuiet_cleanup : AllOf Statement.IsQuiet program.cleanup := by
  have released : ∀ place ∈ program.sections.released, place.IsQuiet := quiet.released
  simpa (disch := first | decide | exact rfl) [cleanup] using released

/-- The checked divisions of the main function are those of the pipelines. -/
theorem haveSites_runMain {n : Nat} (counted : Code.HaveSites (codesOfAll program.body) n) :
    Code.HaveSites (program.runMain.map Line.code) n := by
  have opening : AllOf Code.IsQuiet ((Support.plainLines
      ["int " ++ entryPoint ++ "(int argc, char **argv)", "\x7b"]).map Line.code) := by
    simp (disch := first | decide | exact rfl) [entryPoint]
  have blank : AllOf Code.IsQuiet ([Line.blank].map Line.code) := by simp [Line.blank]
  have lines {statements : List Statement} (quiet : AllOf Statement.IsQuiet statements) :
      AllOf Code.IsQuiet ((Statement.linesOfAll 1 statements).map Line.code) := by
    rw [Statement.map_code_linesOfAll]
    exact Statement.allOf_codesOfAll.2 quiet
  have label : AllOf Code.IsQuiet ((Support.plainLines ["kiln_done:"]).map Line.code) := by
    simp (disch := first | decide | exact rfl)
  have declarations : AllOf Code.IsQuiet
      ((program.sections.declarations.map Declaration.line).map Line.code) := by
    rw [List.map_map]
    exact quiet.declarations
  have body : Code.HaveSites ((Statement.linesOfAll 1 program.body).map Line.code) n := by
    rwa [Statement.map_code_linesOfAll]
  have brace : AllOf Code.IsQuiet ((Support.plainLines ["\x7d"]).map Line.code) := by
    simp (disch := first | decide | exact rfl)
  -- the last line is empty, so that it has no pieces with characters
  have last : Code.HaveSites ((Support.plainLines [""]).map Line.code) 0 :=
    ⟨List.forall_mem_singleton.2 (List.forall_mem_singleton.2 rfl), by decide +kernel,
      by decide +kernel⟩
  have closing : Code.HaveSites ((Support.plainLines ["\x7d", ""]).map Line.code) 0 :=
    .append_left brace last
  -- the parts in the order in which they stand in the program
  have declared := ((Code.HaveSites.of_isQuiet opening).append_right
    (lines program.isQuiet_standardVariables)).append_right declarations
  have start := (declared.append_right blank).append_right (lines (isQuiet_start quiet))
  have pipelines := (start.append_right blank).append body
  have finish := (pipelines.append_right blank).append_right (lines program.isQuiet_finish)
  have cleanup := (finish.append_right label).append_right (lines (isQuiet_cleanup quiet))
  simpa only [runMain, List.map_append, Nat.zero_add, Nat.add_zero] using cleanup.append closing

/-- The checked divisions of a program are those of its pipelines. -/
theorem haveSites_ownLines {n : Nat} (counted : Code.HaveSites (codesOfAll program.body) n) :
    Code.HaveSites (program.ownLines.map Line.code) n := by
  have definitions := allOf_flatMap_codes quiet.definitions
  have standalone : AllOf Code.IsQuiet (standaloneMain.map Line.code) := by
    simp (disch := first | decide | exact rfl) [standaloneMain, standaloneMacro, entryPoint]
  rw [ownLines, List.map_append, List.map_append, map_code_flatMap_lines]
  exact (haveSites_runMain quiet counted).append_left definitions |>.append_right standalone

end Program

namespace Plan

/-- What a plan is lowered to has a checked division for each integer division, or none at all. -/
theorem gives_haveSites_ownLines (plan : Plan) (request : Request) (vectorSize : Nat) :
    Gives (plan.program request vectorSize) fun program =>
      Code.HaveSites (program.ownLines.map Line.code)
        (plan.tree.checkedDivisions (Program.isChecked request)) := by
  rw [program]
  cases request.stage with
  | scalar =>
    exact (plan.gives_haveSites_lowerScalar _ _).bind fun _ known =>
      .ok (Program.haveSites_ownLines known.1 known.2)
  | vectorised =>
    exact (plan.gives_haveSites_lowerVectorised _ _ _).bind fun _ known =>
      .ok (Program.haveSites_ownLines known.1 known.2)

/-- No line that a plan is lowered to ends inside of a string literal. -/
theorem gives_isClosed_program (plan : Plan) (request : Request) (vectorSize : Nat) :
    Gives (plan.program request vectorSize) fun program =>
      AllOf Line.IsClosed program.ownLines :=
  (plan.gives_haveSites_ownLines request vectorSize).imp fun _ counted => counted.isClosed

end Plan

end PlanCompiler
