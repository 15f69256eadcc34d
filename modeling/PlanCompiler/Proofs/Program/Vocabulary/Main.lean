import PlanCompiler.Proofs.Lowering.Vocabulary.Plans
import PlanCompiler.Proofs.Program.Vocabulary.Support

/-!
# The main function within a vocabulary

The main function mentions the conditional words that the request asks for, in the declarations of
its variables, where the tables have been loaded and where it reports. It defines no function whose
name counts, and neither does the function for programs that stand alone.

## Main results

* `Program.extends_runMain`, `Program.extends_standaloneMain`: these functions keep within the
  vocabulary of the definitions in front of them.
-/

namespace PlanCompiler.Program

open Lexeme (scan applied)

variable {v : Vocabulary} {program : Program}

section

variable (has : ∀ word : ConditionalWord, word.isFor program.request = true → v.words word)
include has

/-- The variables of every main function keep within the request's vocabulary. -/
theorem isWithin_standardVariables :
    AllOf (Statement.IsWithin v) program.standardVariables := by
  -- each conditional line comes with the condition under which its word is allowed
  have counting : AllOf (Statement.IsWithin v)
      (if program.request.has .countOnly then [.line "int64_t kiln_count = 0;"] else []) := by
    split
    · rename_i counts
      simp (disch := first | decide | exact rfl)
        [Piece.isWithin_text_of_words _ (has .count counts)]
    · exact .nil
  have profiling : AllOf (Statement.IsWithin v) (if program.request.has .profile then
      [.line "clock_t kiln_started = clock();", .line "clock_t kiln_loaded = kiln_started;"]
      else []) := by
    split
    · rename_i profiles
      simp (disch := first | decide | exact rfl)
        [Piece.isWithin_text_of_two_words _ (has .started profiles) (has .loaded profiles)]
    · exact .nil
  refine AllOf.append_iff.2 ⟨AllOf.append_iff.2 ⟨?_, counting⟩, profiling⟩
  simp (disch := first | decide | exact rfl)

/-- The start of the main function keeps within the vocabulary of the setup. -/
theorem isWithin_start (setup : AllOf (Statement.IsWithin v) program.sections.setup) :
    AllOf (Statement.IsWithin v) program.start := by
  -- each conditional line comes with the condition under which its word is allowed
  have checks : AllOf (Statement.IsWithin v)
      (if isChecked program.request then [.line "kiln_fault = 0;"] else []) := by
    split
    · rename_i checked
      simp (disch := first | decide | exact rfl)
        [Piece.isWithin_text_of_words _ (has .fault checked)]
    · exact .nil
  have profiling : AllOf (Statement.IsWithin v)
      (if program.request.has .profile then [.line "kiln_loaded = clock();"] else []) := by
    split
    · rename_i profiles
      simp (disch := first | decide | exact rfl)
        [Piece.isWithin_text_of_words _ (has .loaded profiles)]
    · exact .nil
  refine AllOf.append_iff.2 ⟨AllOf.append_iff.2 ⟨?_, checks⟩, AllOf.cons_iff.2 ⟨?_,
    AllOf.append_iff.2 ⟨setup, profiling⟩⟩⟩
  all_goals simp (disch := first | decide | exact rfl)

/-- The end of the main function keeps within the request's vocabulary. -/
theorem isWithin_finish : AllOf (Statement.IsWithin v) program.finish := by
  -- each of the three parts is there only under the flag that allows its words
  refine AllOf.append_iff.2 ⟨AllOf.append_iff.2 ⟨?_, ?_⟩, ?_⟩
  · split
    · rename_i counts
      simp (disch := first | decide | exact rfl)
        [Piece.isWithin_text_of_words _ (has .count counts)]
    · exact .nil
  · split
    · rename_i checked
      simp (disch := first | decide | exact rfl)
        [Piece.isWithin_text_of_words _ (has .fault checked)]
    · exact .nil
  · split
    · rename_i profiles
      simp (disch := first | decide | exact rfl)
        [Piece.isWithin_text_of_words _ (has .loaded profiles),
          Piece.isWithin_text_of_two_words _ (has .started profiles) (has .loaded profiles)]
    · exact .nil

end

/-- The release of memory keeps within the vocabulary of what is released. -/
theorem isWithin_cleanup (released : AllOf (Code.IsWithin v) program.sections.released) :
    AllOf (Statement.IsWithin v) program.cleanup := by
  have places : ∀ place ∈ program.sections.released, place.IsWithin v := released
  simpa (disch := first | decide | exact rfl) [cleanup] using places

/-- The opening line of a function whose name does not count. -/
theorem extends_headed {heading : String} {chars : List Char}
    (spelled : String.ofList chars = heading) (plain : isPlainText [] chars = true)
    (silent : applied (scan .outside chars) = []) (opens : chars.head? ≠ some '\x7b')
    {lines : List Line} (behind : v.Extends [] lines) :
    v.Extends [] (Support.plainLines [heading, "\x7b"] ++ lines) := by
  have same : (heading : Code).chars = chars :=
    (Code.chars_text heading).trans (toList_of_spelled spelled)
  have within : (heading : Code).IsWithin v :=
    Code.isWithin_text.2 (Piece.isWithin_text spelled plain)
  rw [← v.define_nil] at behind within
  exact @Vocabulary.Extends.headed _ _ none heading within (same ▸ silent) (same ▸ opens) nofun
    behind

/-- The lines of statements in a function. -/
theorem extends_statements {statements : List Statement}
    (within : AllOf (Statement.IsWithin v) statements) :
    v.Extends [] (Statement.linesOfAll 1 statements) := by
  refine .of_allWithin ?_ fun line => Statement.opensNothing_of_mem_linesOfAll
  rw [Statement.map_code_linesOfAll]
  exact Statement.allWithin_codesOfAll within

/-- A closing brace. -/
theorem extends_brace : v.Extends [] (Support.plainLines ["\x7d"]) := by
  refine .text ?_ ?_
  · simp (disch := first | decide | exact rfl)
  · rw [toList_of_spelled (rfl : String.ofList _ = "\x7d")]
    exact fun same => absurd (Option.some.inj same) (by decide)

/-- The function that runs the plan extends a vocabulary that knows the request's words. -/
theorem extends_runMain
    (has : ∀ word : ConditionalWord, word.isFor program.request = true → v.words word)
    (sections : program.sections.IsWithin v) (body : AllOf (Statement.IsWithin v) program.body) :
    v.Extends [] program.runMain := by
  have declarations : v.Extends [] (program.sections.declarations.map Declaration.line) := by
    refine .of_forall ?_ (List.forall_mem_map.2 fun declaration _ => Line.opensNothing_of_lt ?_)
    · rw [List.map_map]
      exact sections.declarations
    · cases declaration <;> exact Nat.one_pos
  have label : v.Extends [] (Support.plainLines ["kiln_done:"]) := by
    refine .text ?_ (by simp)
    simp (disch := first | decide | exact rfl)
  -- the last line is empty, so that it has no pieces with characters
  have last : v.Extends [] (Support.plainLines [""]) :=
    .of_reads (List.forall_mem_singleton.2 (.of_silent List.not_mem_nil rfl rfl
      fun word _ => List.not_mem_nil)) ⟨fun directive => absurd directive (by decide), trivial⟩
      (List.forall_mem_singleton.2 (Line.opensNothing_of_head? (by simp) 0))
  have closing : v.Extends [] (Support.plainLines ["\x7d", ""]) := extends_brace.append_left last
  -- the parts in the order in which they stand in the program
  have behind := extends_statements (isWithin_standardVariables has)
    |>.append_left declarations |>.append_left .blank
    |>.append_left (extends_statements (isWithin_start has sections.setup)) |>.append_left .blank
    |>.append_left (extends_statements body) |>.append_left .blank
    |>.append_left (extends_statements (isWithin_finish has)) |>.append_left label
    |>.append_left (extends_statements (isWithin_cleanup sections.released))
    |>.append_left closing
  have spelled : String.ofList _ = "int run_main(int argc, char **argv)" := rfl
  have heading :
      "int run_main(int argc, char **argv)" = "int " ++ entryPoint ++ "(int argc, char **argv)" :=
    rfl
  have headed := extends_headed (spelled.trans heading) (by decide) (by decide) (by decide) behind
  simpa only [runMain, List.append_assoc] using headed

/-- The main function of a program extends any vocabulary. -/
theorem extends_standaloneMain : v.Extends [] standaloneMain := by
  have condition : v.Extends [] (Support.plainLines ["#ifdef " ++ standaloneMacro]) := by
    refine .text ?_ (by simp)
    simp (disch := first | decide | exact rfl) [standaloneMacro]
  have call : v.Extends [] (Support.plainLines ["\treturn " ++ entryPoint ++ "(argc, argv);"]) := by
    refine .text ?_ (by simp)
    simp (disch := first | decide | exact rfl) [entryPoint]
  have closing : v.Extends [] (Support.plainLines ["#endif"]) := by
    refine .text ?_ (by simp)
    simp (disch := first | decide | exact rfl)
  have behind := (call.append_left extends_brace).append_left closing
  have spelled : String.ofList _ = "int main(int argc, char **argv)" := rfl
  exact condition.append_left (extends_headed spelled (by decide) (by decide) (by decide) behind)

end PlanCompiler.Program
