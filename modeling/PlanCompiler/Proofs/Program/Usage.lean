import PlanCompiler.Proofs.Program.Vocabulary.Main

/-!
# What programs use and what they define

The code that uses a function, a variable or a macro and the code that defines it come about in
different places: the pipelines use what the fixed part and the operators define, and both look at
the request on their own. In every program they agree, whatever the plan: the words that belong to a
flag or to a stage occur in exactly the programs with it, and functions are defined in front of the
lines that call them. The strings of a plan may well have the same words in them.

## Main definitions

* `Text.KeepsTo`: a text uses what a request asks for, and defines what it uses.

## Main results

* `Plan.gives_extends_lines`: the lines of a program keep within a vocabulary;
* `Plan.exists_generate_keepsTo`: every program uses what its request asks for.
-/

namespace PlanCompiler

open Lexeme (scan after applied)
open Scope (linesText)
open Text (uses DefinesInOrder DirectivesLead)

/-! ## Words of vocabularies -/

/-- The only functions that are spelled like conditional words are these two. -/
theorem ConditionalWord.eq_of_isFunction {word : ConditionalWord} {name : Name}
    (function : name.isFunction = true) (same : name.text.toList = word.chars) :
    word = .divide ∧ name = .helper .divide ∨ word = .printRow ∧ name = .printRow := by
  have spelled := Name.ofStem_stem function
  rw [Name.stem, Name.digits, same] at spelled
  cases word with
  | divide => exact .inl ⟨rfl, spelled.symm.trans (by decide +kernel)⟩
  | printRow => exact .inr ⟨rfl, spelled.symm.trans (by decide +kernel)⟩
  | fault | count | started | loaded | vectorSize =>
    -- no other function has no digits in its name
    have other : name = .printRow := spelled.symm.trans (by decide +kernel)
    rw [other] at same
    exact absurd same (by decide +kernel)

namespace Vocabulary

variable {v : Vocabulary} {functions : List Name} {lines : List Line}

/-- Functions that are defined are mentioned. -/
theorem Extends.exists_line (extended : v.Extends functions lines) {name : Name}
    (member : name ∈ functions) :
    ∃ line ∈ lines, .word name.text.toList ∈ scan .outside line.chars := by
  have defined : name.text.toList ∈ Text.defined (uses (lines.map Line.chars)) := by
    rw [extended.defined]
    exact List.mem_map_of_mem member
  obtain ⟨use, found, spelled⟩ := List.mem_map.1 defined
  obtain ⟨chars, inside, called⟩ := Text.exists_of_mem_uses (List.mem_filter.1 found).1
  obtain ⟨line, lineMember, rfl⟩ := List.mem_map.1 inside
  obtain ⟨lexeme, read, own⟩ := Lexeme.mem_of_mem_applied called
  refine ⟨line, lineMember, ?_⟩
  -- only words are applied to something
  cases lexeme with
  | literal | sign => cases own
  | word word =>
    obtain ⟨-, same⟩ := Option.ite_none_right_eq_some.1 own
    rwa [← spelled, ← Option.some.inj same]

end Vocabulary

/-! ## Lines and texts -/

namespace Scope

variable {lines : List Line}

/-- The lines of a text are those that it was put together from. -/
theorem lines_linesText (sameLine : ∀ line ∈ lines, '\n' ∉ line.chars) :
    Text.lines (linesText lines) = lines.map Line.chars := by
  induction lines with
  | nil => rfl
  | cons line rest ih =>
    obtain ⟨first, others⟩ := List.forall_mem_cons.1 sameLine
    rw [linesText, List.flatMap_cons, line.toList_text, List.append_assoc, List.singleton_append,
      List.map_cons, ← ih others]
    exact Text.lines_append first

/-- The words of a text are those of its lines. -/
theorem word_mem_scan_linesText {chars : List Char}
    (outside : ∀ line ∈ lines, after .outside line.chars = .outside) :
    .word chars ∈ scan .outside (linesText lines) ↔
      ∃ line ∈ lines, .word chars ∈ scan .outside line.chars := by
  induction lines with
  | nil => simp [linesText, scan]
  | cons line rest ih =>
    obtain ⟨first, others⟩ := List.forall_mem_cons.1 outside
    have text : linesText (line :: rest) = line.chars ++ '\n' :: linesText rest := by
      rw [linesText, List.flatMap_cons, line.toList_text, List.append_assoc]
      rfl
    have newline : scan .outside ('\n' :: linesText rest) =
        .sign '\n' :: scan .outside (linesText rest) := rfl
    -- a line ends outside of literals, so that no word goes across its end
    rw [text, Lexeme.scan_append fun _ _ => rfl, first, newline, List.mem_append, List.mem_cons,
      ih others, List.exists_mem_cons_iff]
    simp

end Scope

/-! ## Programs -/

namespace Program

variable (program : Program)

/-- Lines at the top of the main function. -/
theorem mem_lines_of_standardVariable {code : Code}
    (member : .line code ∈ program.standardVariables) :
    { indent := 1, code } ∈ program.lines := by
  have inLines : ({ indent := 1, code } : Line) ∈
      Statement.linesOfAll 1 program.standardVariables := by
    obtain ⟨front, back, split⟩ := List.append_of_mem member
    rw [split, Scope.linesOfAll_append, Statement.linesOfAll, Statement.lines]
    simp
  simp [lines, runMain, inLines]

/-- Variables of the fixed part. -/
theorem mem_lines_of_global {code : Code}
    (member : .global code ∈ supportDefinitions (isChecked program.request)) :
    { indent := 0, code } ∈ program.lines := by
  have inPreamble : ({ indent := 0, code } : Line) ∈ program.preamble :=
    List.mem_append_right _ (List.mem_flatMap.2 ⟨_, member, List.mem_cons_self⟩)
  simp [lines, inPreamble]

/-- The macro for the number of rows in a batch. -/
theorem mem_lines_vectorSize (vectorised : program.request.stage = .vectorised) {line : Line}
    (member : line ∈ Support.plainLines
      ["#define KILN_VECTOR_SIZE " ++ toString program.vectorSize]) : line ∈ program.lines := by
  have inPreamble : line ∈ program.preamble := by
    simp only [preamble, if_pos vectorised, List.mem_append]
    tauto
  simp [lines, inPreamble]

end Program

namespace Plan

variable (plan : Plan) (request : Request) (vectorSize : Nat)

/-- The functions that the programs of a plan define for a request. -/
def functions : List Name :=
  Definition.functions (Program.supportDefinitions (Program.isChecked request)) ++
    Definition.functions (plan.definitions (request.has .countOnly))

/-- What a program defines are functions. -/
theorem isFunction_of_mem_functions {name : Name} (member : name ∈ plan.functions request) :
    name.isFunction = true := by
  rcases List.mem_append.1 member with member | member
  · obtain ⟨helper, rfl⟩ := Program.exists_helper_of_mem_functions member
    rfl
  · exact ((plan.nodup_functions _).2 name member).1

/-- Behind its definitions, a program has its helpers. -/
theorem hasHelpers_define_functions {v : Vocabulary} :
    (v.define (plan.functions request)).HasHelpers := by
  intro helper other
  exact List.mem_append_right _ (List.mem_append_left _ (Program.helper_mem_functions _ other))

/-- The main function of a program only calls functions that it defines. -/
theorem gives_isWithin_program :
    Gives (plan.program request vectorSize) fun program => program.request = request ∧
      program.sections.IsWithin ((Vocabulary.ofRequest request).define (plan.functions request)) ∧
      AllOf (Statement.IsWithin ((Vocabulary.ofRequest request).define (plan.functions request)))
        program.body := by
  have defined : Definition.functions (plan.definitions (request.has .countOnly)) ⊆
      ((Vocabulary.ofRequest request).define (plan.functions request)).functions :=
    fun name member => List.mem_append_right _ (List.mem_append_right _ member)
  -- divisions are checked by a helper that is defined just in this case
  have divides : Program.isChecked request = true → .helper .divide ∈
      ((Vocabulary.ofRequest request).define (plan.functions request)).functions := by
    intro checked
    refine List.mem_append_right _ (List.mem_append_left _ ?_)
    rw [Program.functions_supportDefinitions, checked]
    exact List.mem_cons_self
  have helpers := plan.hasHelpers_define_functions request (v := .ofRequest request)
  rw [program]
  cases stage : request.stage with
  | scalar =>
    exact (gives_isWithin_lowerScalar defined id id divides helpers).bind fun lowered known =>
      .ok ⟨rfl, known⟩
  | vectorised =>
    have has : ConditionalWord.isFor request .vectorSize = true := decide_eq_true stage
    exact (gives_isWithin_lowerVectorised defined id id divides helpers has id).bind
      fun lowered known => .ok ⟨rfl, known⟩

/-- The lines of a program keep within the vocabulary of its request, and define the functions. -/
theorem gives_extends_lines :
    Gives (plan.program request vectorSize) fun program => program.request = request ∧
      (Vocabulary.ofRequest request).Extends (plan.functions request) program.lines := by
  intro program lowered
  obtain ⟨rfl, sections, body⟩ := plan.gives_isWithin_program request vectorSize program lowered
  have definitions := plan.gives_definitions_program _ vectorSize program lowered
  -- the helpers are defined in front, and no function of the plan has the name of one
  have ordered : ((Vocabulary.ofRequest program.request).define (Definition.functions
      (Program.supportDefinitions (Program.isChecked program.request)))).Extends
        (Definition.functions (plan.definitions (program.request.has .countOnly)))
        (program.sections.definitions.flatMap Definition.lines) := by
    rw [definitions]
    refine (plan.inOrder_definitions _ fun helper other => ?_).extends ?_ fun name member =>
      plan.isFunction_of_mem_functions program.request member
    · exact List.mem_append_right _ (Program.helper_mem_functions _ other)
    · refine List.nodup_append.2 ⟨Program.nodup_functions_supportDefinitions _,
        (plan.nodup_functions _).1, ?_⟩
      intro name support other own
      obtain ⟨helper, rfl⟩ := Program.exists_helper_of_mem_functions support
      exact (((plan.nodup_functions _).2 other own).2 helper).symm
  have main : ((Vocabulary.ofRequest program.request).define
      (plan.functions program.request)).Extends [] (program.runMain ++ Program.standaloneMain) :=
    (Program.extends_runMain (fun _ => id) sections body).append_left Program.extends_standaloneMain
  have all := (program.extends_preamble.append ordered).append main
  rw [List.append_nil] at all
  refine ⟨rfl, ?_⟩
  rw [functions, Program.lines, List.append_assoc (_ ++ _)]
  exact all

end Plan

/-- A text uses what a request asks for, and defines what it uses. -/
structure Text.KeepsTo (request : Request) (text : String) : Prop where
  /-- A conditional word occurs outside of string literals if, and only if, the request asks for
  it. -/
  words : ∀ word : ConditionalWord, Text.Mentions text word.text ↔ word.isFor request = true
  /-- Directives only occur with SIMD hints, and each one has a loop on the next line. -/
  directives : DirectivesLead (request.has .simdHints = true) (Text.lines text.toList)
  /-- Each function that is called is defined, once, and in front of its calls. -/
  functions : DefinesInOrder [] (uses (Text.lines text.toList))
  /-- No line ends inside of a string literal, so that lines can be read on their own. -/
  closed : ∀ line ∈ Text.lines text.toList, after .outside line = .outside

/-- Lines that keep within the vocabulary of a request. -/
theorem Text.KeepsTo.of_extends {request : Request} {functions : List Name} {lines : List Line}
    (extended : (Vocabulary.ofRequest request).Extends functions lines)
    (words : ∀ word : ConditionalWord,
      (∃ line ∈ lines, .word word.chars ∈ scan .outside line.chars) ↔ word.isFor request = true)
    {text : String} (joined : text.toList = linesText lines) : KeepsTo request text := by
  have outside : ∀ line ∈ lines, after .outside line.chars = .outside :=
    fun line member => (extended.reads line member).outside
  -- no newline stands within a line, so the text is divided into the lines it was joined from
  have split : Text.lines text.toList = lines.map Line.chars := by
    rw [joined]
    exact Scope.lines_linesText fun line member => (extended.reads line member).sameLine
  constructor
  · intro word
    rw [Text.Mentions, joined, word.toList_text, Scope.word_mem_scan_linesText outside]
    exact words word
  · rw [split]
    exact extended.directed
  · rw [split]
    exact extended.ordered
  · rw [split]
    exact List.forall_mem_map.2 outside

namespace Plan

variable (plan : Plan) (request : Request) (vectorSize : Nat)

/-- The function that prints rows is not there if they are counted. -/
theorem printRow_notMem_functions : .printRow ∉ Definition.functions (plan.definitions true) := by
  rw [functions_definitions, if_pos rfl, List.append_nil, List.mem_append, not_or]
  constructor
  · intro member
    obtain ⟨node, -, other⟩ := List.mem_map.1 (plan.functions_tableSections_sublist.subset member)
    cases other
  · intro member
    obtain ⟨node, -, other⟩ := List.mem_flatMap.1
      (plan.tree.functions_definitions_sublist.subset member)
    simp [Groups.functionsAt] at other

/-- The programs of a request may mention what it asks for, also among their functions. -/
theorem isFor_of_allows {word : ConditionalWord}
    (allowed : ((Vocabulary.ofRequest request).define (plan.functions request)).Allows word) :
    word.isFor request = true := by
  rcases allowed with asked | ⟨name, member, same⟩
  · exact asked
  have known : name ∈ plan.functions request := member
  have function := plan.isFunction_of_mem_functions request known
  rcases ConditionalWord.eq_of_isFunction function same with ⟨rfl, rfl⟩ | ⟨rfl, rfl⟩
  · -- a plan has no helper functions of its own
    rcases List.mem_append.1 known with support | own
    · rw [Program.functions_supportDefinitions] at support
      by_contra asked
      have unchecked : ¬ Program.isChecked request = true := asked
      rw [if_neg unchecked] at support
      exact absurd support (by decide)
    · exact absurd rfl (((plan.nodup_functions _).2 _ own).2 .divide)
  · rcases List.mem_append.1 known with support | own
    · obtain ⟨helper, other⟩ := Program.exists_helper_of_mem_functions support
      cases other
    · rw [ConditionalWord.isFor, Bool.not_eq_true']
      by_contra counts
      rw [Bool.not_eq_false] at counts
      exact plan.printRow_notMem_functions (counts ▸ own)

/-- The checked division is defined where divisions are checked. -/
theorem divide_mem_functions (checked : Program.isChecked request = true) :
    .helper .divide ∈ plan.functions request := by
  refine List.mem_append_left _ ?_
  rw [Program.functions_supportDefinitions, if_pos checked]
  exact List.mem_cons_self

/-- The function that prints rows is defined where they are not only counted. -/
theorem printRow_mem_functions (prints : request.has .countOnly = false) :
    .printRow ∈ plan.functions request := by
  refine List.mem_append_right _ ?_
  rw [functions_definitions, prints]
  exact List.mem_append_left _ (List.mem_append_right _ List.mem_cons_self)

/-- A line with a fixed text, and a word among the lexemes of it. -/
theorem exists_line_of_text {program : Program} {word : ConditionalWord} {text : String}
    {chars : List Char} (spelled : String.ofList chars = text) {indent : Nat}
    (member : { indent, code := text } ∈ program.lines)
    (read : .word word.chars ∈ scan .outside chars) :
    ∃ line ∈ program.lines, .word word.chars ∈ scan .outside line.chars := by
  refine ⟨_, member, ?_⟩
  rwa [Line.scan_chars, Code.chars_text, toList_of_spelled spelled]

/-- What a request asks for is mentioned by its programs. -/
theorem exists_line_of_isFor {word : ConditionalWord} (asked : word.isFor request = true) :
    Gives (plan.program request vectorSize) fun program =>
      ∃ line ∈ program.lines, .word word.chars ∈ scan .outside line.chars := by
  intro program lowered
  obtain ⟨rfl, extended⟩ := plan.gives_extends_lines request vectorSize program lowered
  -- each word is declared in a line of its own, but for the two that are names of functions
  cases word with
  | fault =>
    have checked : Program.isChecked program.request = true := asked
    refine exists_line_of_text (rfl : String.ofList _ = "static int kiln_fault;")
      (program.mem_lines_of_global ?_) (by decide)
    rw [Program.supportDefinitions, if_pos checked]
    exact List.mem_cons_self
  | divide =>
    obtain ⟨line, inside, read⟩ := extended.exists_line (plan.divide_mem_functions _ asked)
    rw [toList_text_divide] at read
    exact ⟨line, inside, read⟩
  | printRow =>
    exact extended.exists_line (plan.printRow_mem_functions _ ((Bool.not_eq_true' _).mp asked))
  | count =>
    have counts : program.request.has .countOnly = true := asked
    refine exists_line_of_text (rfl : String.ofList _ = "int64_t kiln_count = 0;")
      (program.mem_lines_of_standardVariable ?_) (by decide)
    simp [Program.standardVariables, counts]
  | started =>
    have profiles : program.request.has .profile = true := asked
    refine exists_line_of_text (rfl : String.ofList _ = "clock_t kiln_started = clock();")
      (program.mem_lines_of_standardVariable ?_) (by decide)
    simp [Program.standardVariables, profiles]
  | loaded =>
    have profiles : program.request.has .profile = true := asked
    refine exists_line_of_text (rfl : String.ofList _ = "clock_t kiln_loaded = kiln_started;")
      (program.mem_lines_of_standardVariable ?_) (by decide)
    simp [Program.standardVariables, profiles]
  | vectorSize =>
    have vectorised : program.request.stage = .vectorised := of_decide_eq_true asked
    refine ⟨_, program.mem_lines_vectorSize vectorised List.mem_cons_self, ?_⟩
    -- the number behind the word is a word of its own
    rw [Line.scan_chars, Code.chars_text, String.toList_append, toList_of_spelled
      (rfl : String.ofList _ = "#define KILN_VECTOR_SIZE "),
      Lexeme.scan_append fun _ ends => absurd ends (by decide)]
    exact List.mem_append_left _ (by decide)

/-- In every program, whatever the plan, the stage, the flags and the number of rows in a batch, the
words that belong to a flag or to a stage occur outside of string literals exactly if the request
asks for them. Directives only occur with SIMD hints and stand in front of loops, and each function
that is called is defined, once, and in front of its calls. -/
theorem exists_generate_keepsTo :
    ∃ source, plan.generate request vectorSize = .ok source ∧ Text.KeepsTo request source.text := by
  obtain ⟨program, lowered, -⟩ := plan.yields_program request vectorSize
  obtain ⟨-, extended⟩ := plan.gives_extends_lines request vectorSize program lowered
  -- what a program mentions it may mention, and what was asked for it does mention
  have words (word : ConditionalWord) :
      (∃ line ∈ program.lines, .word word.chars ∈ scan .outside line.chars) ↔
        word.isFor request = true := by
    constructor
    · rintro ⟨line, member, read⟩
      exact plan.isFor_of_allows request ((extended.reads line member).words word read)
    · exact fun asked => plan.exists_line_of_isFor request vectorSize asked program lowered
  have joined : program.text.toList = linesText program.lines := by
    rw [Program.text, String.toList_join, List.flatMap_map]
    rfl
  refine ⟨{ request, text := program.text }, bind_eq_ok_iff.2 ⟨program, lowered, rfl⟩, ?_⟩
  dsimp only
  exact .of_extends extended words joined

end Plan

end PlanCompiler
