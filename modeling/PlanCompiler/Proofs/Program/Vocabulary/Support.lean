import PlanCompiler.Proofs.Code.Vocabulary.Definitions
import PlanCompiler.Proofs.Program.Quiet

/-!
# The fixed part of programs within a vocabulary

What stands in front of the definitions of a plan only depends on the request. It defines the helper
functions, in an order in which each one only calls those in front of it, and in programs with
checks the variable and the function for checked division in front of them.

## Main definitions

* `Vocabulary.ofRequest`: what the programs of a request may mention before anything is defined;
* `Program.supportDefinitions`: the functions of the fixed part.

## Main results

* `Support.inOrder_helpers`: helper functions only call those in front of them;
* `Program.extends_preamble`: the fixed part of a program.
-/

namespace PlanCompiler

open Lexeme (scan after applied)

/-- What the programs of a request may mention before anything is defined. -/
def Vocabulary.ofRequest (request : Request) : Vocabulary where
  words word := word.isFor request = true
  functions := []
  directives := request.has .simdHints = true

variable {v : Vocabulary}

/-- Characters that neither call functions nor have conditional words keep within every
vocabulary. -/
theorem Lexeme.ReadsWithin.of_silent {chars : List Char} (sameLine : '\n' ∉ chars)
    (outside : after .outside chars = .outside) (silent : applied (scan .outside chars) = [])
    (noWord : ∀ word ∈ ConditionalWord.all, .word word.chars ∉ scan .outside chars) :
    ReadsWithin v chars where
  sameLine := sameLine
  outside := outside
  calls := by
    rw [silent]
    exact List.forall_mem_nil _
  words word member := absurd member (noWord word word.mem_all)

namespace Support

/-! ## Macros -/

/-- The lines that include headers extend any vocabulary by nothing. -/
theorem extends_includes : v.Extends [] includes := by
  refine .of_forall ?_ ?_
  · simp (disch := first | decide | exact rfl) [includes]
  · unfold Line.OpensNothing
    decide

/-- The lines that define status codes extend any vocabulary by nothing. -/
theorem extends_statusCodes : v.Extends [] statusCodes := by
  refine .of_forall ?_ ?_
  · simp (disch := first | decide | exact rfl) [statusCodes]
  · unfold Line.OpensNothing
    decide

/-- The lines that define the check macro extend any vocabulary by nothing. -/
theorem extends_checkMacro (checked : Bool) : v.Extends [] (checkMacro checked) := by
  refine .of_forall ?_ ?_
  · cases checked <;> simp (disch := first | decide | exact rfl) [checkMacro]
  · unfold Line.OpensNothing
    cases checked <;> decide

/-- Some of these lines end with a backslash, so that they are gone through as they are. -/
theorem extends_controlMacros : v.Extends [] controlMacros := by
  have reads : ∀ line ∈ controlMacros, '\n' ∉ line.chars ∧
      after .outside line.chars = .outside ∧ applied (scan .outside line.chars) = [] ∧
        ∀ word ∈ ConditionalWord.all, .word word.chars ∉ scan .outside line.chars := by
    decide
  have noDirective : ∀ line ∈ controlMacros.map Line.chars, Text.isDirective line = false := by
    decide
  refine .of_reads (fun line member => ?_) (.of_forall noDirective) ?_
  · obtain ⟨sameLine, outside, silent, noWord⟩ := reads line member
    exact .of_silent sameLine outside silent noWord
  · unfold Line.OpensNothing
    decide

/-! ## Helper functions -/

/-- Helper functions only have fixed texts in front of their bodies. -/
theorem isWithin_commented {comment : List String} {name : Helper} {result : String}
    {parameters : List String} {body : List Statement}
    (comments : ∀ text ∈ comment, (Piece.text text).IsWithin v ∧ text.toList.head? ≠ some '\x7b')
    (resultWithin : (Piece.text ("static inline " ++ result)).IsWithin v)
    (parametersWithin : ∀ text ∈ parameters, (Piece.text text).IsWithin v)
    (bodyWithin : AllOf (Code.IsWithin (v.define [.helper name])) (Statement.codesOfAll body)) :
    (commented comment name result parameters body).IsWithin v := by
  refine ⟨comments, ⟨resultWithin, ?_⟩, rfl, fun functions => ?_, .of_forall bodyWithin⟩
  · rw [String.toList_append]
    rfl
  · exact AllOf.map_iff.2 fun text member => Code.isWithin_text.2 (parametersWithin text member)

/-- The checked division is in order where the fault flag is known. -/
theorem inOrder_checkedDivision (has : v.words .fault) :
    Definition.InOrder v checkedDivision := by
  have fault : (Piece.text "static int kiln_fault;").IsWithin v := by
    simp (disch := first | decide | exact rfl) [Piece.isWithin_text_of_words _ has]
  have record : (Piece.text "kiln_fault = 1;").IsWithin
      ((v.define []).define [.helper .divide]) :=
    Piece.isWithin_text_of_words (rfl : String.ofList _ = "kiln_fault = 1;") has (by decide)
  have start : ("static int kiln_fault;" : Code).chars.head? = some 's' := by
    rw [Code.chars_text, toList_of_spelled (rfl : String.ofList _ = "static int kiln_fault;")]
    rfl
  refine ⟨⟨Code.isWithin_text.2 fault, start ▸ nofun⟩, isWithin_commented ?_ ?_ ?_ ?_, trivial⟩
  all_goals
    simp (disch := first | decide | exact rfl) [Statement.codes, Statement.codesOfAll, Head.codes]
  exact record

/-- The hash functions are in order. -/
theorem inOrder_hashing : Definition.InOrder v hashing := by
  refine ⟨isWithin_commented ?_ ?_ ?_ ?_, isWithin_commented ?_ ?_ ?_ ?_,
    isWithin_commented ?_ ?_ ?_ ?_, trivial⟩
  all_goals
    simp (disch := first | decide | exact rfl) [Statement.codes, Statement.codesOfAll,
      Vocabulary.define, Definition.function?, helper, commented]

/-- The pattern matcher keeps within any vocabulary. -/
theorem isWithin_matching : matching.IsWithin v := by
  refine isWithin_commented ?_ ?_ ?_ ?_
  all_goals
    simp (disch := first | decide | exact rfl) [Statement.codes, Statement.codesOfAll, Head.codes,
      Statement.closeFirst]

/-- The helpers for tables are in order. -/
theorem inOrder_tables : Definition.InOrder v tables := by
  refine ⟨isWithin_commented ?_ ?_ ?_ ?_, isWithin_commented ?_ ?_ ?_ ?_, trivial⟩
  all_goals
    simp (disch := first | decide | exact rfl) [Statement.codes, Statement.codesOfAll]

/-- The helpers for dates are in order. -/
theorem inOrder_dates : Definition.InOrder v dates := by
  refine ⟨isWithin_commented ?_ ?_ ?_ ?_, isWithin_commented ?_ ?_ ?_ ?_, trivial⟩
  all_goals
    simp (disch := first | decide | exact rfl) [Statement.codes, Statement.codesOfAll]

/-- Dates are read with the function for day numbers. -/
theorem inOrder_fields (defined : .helper .daysFromCivil ∈ v.functions) :
    Definition.InOrder v fields := by
  refine ⟨isWithin_commented ?_ ?_ ?_ ?_, isWithin_commented ?_ ?_ ?_ ?_,
    isWithin_commented ?_ ?_ ?_ ?_, trivial⟩
  all_goals
    simp (disch := first | decide | exact rfl) [Statement.codes, Statement.codesOfAll, Head.codes,
      Statement.closeFirst, Vocabulary.define, defined]

/-- The readers of lines are in order. -/
theorem inOrder_lines : Definition.InOrder v lines := by
  refine ⟨isWithin_commented ?_ ?_ ?_ ?_, isWithin_commented ?_ ?_ ?_ ?_,
    isWithin_commented ?_ ?_ ?_ ?_, trivial⟩
  all_goals
    simp (disch := first | decide | exact rfl) [Statement.codes, Statement.codesOfAll, Head.codes]

/-- Helper functions only call those in front of them. -/
theorem inOrder_helpers : Definition.InOrder v helpers := by
  have days : Name.helper .daysFromCivil ∈ Definition.functions (tables ++ dates) := by
    simp [Definition.functions, Definition.function?, tables, dates, helper, commented]
  refine inOrder_hashing.append ⟨isWithin_matching, ((inOrder_tables.append inOrder_dates).append
    (inOrder_fields (List.mem_append_right _ days))).append inOrder_lines⟩

/-- The helper functions of every program. -/
def helperNames : List Helper :=
  [.hashInt, .hashFloat, .hashText, .like, .hashCombine, .tableSize, .daysFromCivil, .printDate,
    .parseInt, .parseFloat, .parseDate, .readLine, .storeText, .split]

/-- What the fixed part defines are the helpers of every program. -/
theorem functions_helpers : Definition.functions helpers = helperNames.map Name.helper := by
  rfl

/-- Every helper but the division is in every program. -/
theorem mem_helperNames {helper : Helper} (other : helper ≠ .divide) : helper ∈ helperNames := by
  cases helper <;> first | exact absurd rfl other | decide

end Support

namespace Program

/-- What every program with checks, or without them, defines. -/
def supportDefinitions (checked : Bool) : List Definition :=
  (if checked then Support.checkedDivision else []) ++ Support.helpers

/-- What the fixed part defines with checks or without them. -/
theorem functions_supportDefinitions (checked : Bool) :
    Definition.functions (supportDefinitions checked) =
      (if checked then .divide :: Support.helperNames else Support.helperNames).map
        Name.helper := by
  rw [supportDefinitions, Definition.functions_append, Support.functions_helpers]
  cases checked <;> rfl

/-- Every helper but the division is defined, with checks or without them. -/
theorem helper_mem_functions (checked : Bool) {helper : Helper} (other : helper ≠ .divide) :
    .helper helper ∈ Definition.functions (supportDefinitions checked) := by
  rw [functions_supportDefinitions]
  refine List.mem_map_of_mem ?_
  split
  · exact List.mem_cons_of_mem _ (Support.mem_helperNames other)
  · exact Support.mem_helperNames other

/-- No helper is defined twice. -/
theorem nodup_functions_supportDefinitions (checked : Bool) :
    (Definition.functions (supportDefinitions checked)).Nodup := by
  rw [functions_supportDefinitions]
  cases checked <;> decide

/-- Only helpers are defined in the fixed part. -/
theorem exists_helper_of_mem_functions {checked : Bool} {name : Name}
    (member : name ∈ Definition.functions (supportDefinitions checked)) :
    ∃ helper, name = .helper helper := by
  rw [functions_supportDefinitions] at member
  obtain ⟨helper, -, rfl⟩ := List.mem_map.1 member
  exact ⟨helper, rfl⟩

/-- The fixed part of a request's programs is in order. -/
theorem inOrder_supportDefinitions (request : Request) :
    Definition.InOrder (.ofRequest request) (supportDefinitions (isChecked request)) := by
  refine .append ?_ Support.inOrder_helpers
  split
  · rename_i checked
    exact Support.inOrder_checkedDivision checked
  · trivial

/-- The line on top of a program names the request. -/
theorem isWithin_title (stage : Stage) (flags : Flags) :
    (Piece.text ("/* Generated by kiln: " ++ stage.name ++ " stage, flags " ++ flags.text ++
      " */")).IsWithin v := by
  have stageName : ∀ c ∈ ['"', '\\', '\n', 'm', '_'], c ∉ stage.name.toList := by
    cases stage <;> exact List.all_iff_forall_prop.1 (by decide)
  have digits {c : Char} (other : c ∈ ['"', '\\', '\n', 'm', '_']) :
      c ∉ Nat.toDigits 16 flags.bits.toNat := by
    intro member
    obtain ⟨digit, -, rfl⟩ := Numeral.exists_digitChar_of_mem_toDigits (by decide) member
    simp only [List.mem_cons, List.not_mem_nil, or_false] at other
    obtain same | same | same | same | same := other <;>
      exact Nat.digitChar_ne _ (by decide) same
  -- the line has a letter of own words, so it is an underscore that it lacks
  refine Piece.isWithin_of_notMem_underscore (by simp) ?_ ?_ ?_ ?_ ?_ <;>
    simp [Flags.text, Numeral.hex, Numeral.inBase, stageName, digits]

/-- The line that defines the vector size keeps within a vocabulary that knows it. -/
theorem isWithin_vectorSize (has : v.words .vectorSize) (vectorSize : Nat) :
    (Piece.text ("#define KILN_VECTOR_SIZE " ++ toString vectorSize)).IsWithin v := by
  refine ⟨[.vectorSize], isPlainText_vectorSize_of_notMem ?_ ?_ ?_ ?_ ?_ ?_,
    List.forall_mem_singleton.2 has⟩
  all_goals simp

/-- The comment at the top of a program. -/
theorem extends_title (request : Request) : v.Extends [] (Support.plainLines
    ["/* Generated by kiln: " ++ request.stage.name ++ " stage, flags " ++ request.flags.text ++
      " */"]) :=
  .text (isWithin_title _ _) (by simp)

/-- The line with the vector size stands in the programs whose request asks for it. -/
theorem extends_vectorSize (program : Program) :
    (Vocabulary.ofRequest program.request).Extends []
      (if program.request.stage = .vectorised then
        Support.plainLines ["#define KILN_VECTOR_SIZE " ++ toString program.vectorSize]
      else []) := by
  split
  · rename_i vectorised
    have has : (Vocabulary.ofRequest program.request).words .vectorSize := decide_eq_true vectorised
    exact .text (isWithin_vectorSize has _) (by simp)
  · exact .nil

/-- The definitions of the fixed part define the helpers, each of them once. -/
theorem extends_supportDefinitions (request : Request) :
    (Vocabulary.ofRequest request).Extends
      (Definition.functions (supportDefinitions (isChecked request)))
      ((supportDefinitions (isChecked request)).flatMap Definition.lines) := by
  refine (inOrder_supportDefinitions request).extends
    (nodup_functions_supportDefinitions _) fun name member => ?_
  obtain ⟨helper, rfl⟩ := exists_helper_of_mem_functions member
  rfl

/-- The fixed part of a program. -/
theorem extends_preamble (program : Program) :
    (Vocabulary.ofRequest program.request).Extends
      (Definition.functions (supportDefinitions (isChecked program.request))) program.preamble :=
  -- the parts in the order in which they stand in the program
  extends_title program.request |>.append_left .blank |>.append_left Support.extends_includes
    |>.append_left .blank |>.append_left Support.extends_statusCodes
    |>.append_left (extends_vectorSize program) |>.append_left .blank
    |>.append_left Support.extends_controlMacros |>.append_left (Support.extends_checkMacro _)
    |>.append_left .blank |>.append_left (extends_supportDefinitions program.request)

end Program

end PlanCompiler
