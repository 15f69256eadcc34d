import PlanCompiler.Proofs.Program.Pointers
import PlanCompiler.Proofs.Program.Scope

/-!
# Memory of the main function

Wherever `run_main` fails, it goes on behind the label `kiln_done`, and releases there the memory
that its variables point to. All of them are declared by then, because nothing jumps before.

## Main definitions

* `Program.ReleasesAll`: every pointer that is declared is released once, and nothing else is.

## Main results

* `Plan.exists_releasesAll_program`: this is so for all programs.
-/

namespace PlanCompiler

open Code Memory Scope

namespace Program

/-- The lines at the top of the main function, which declare all its variables. -/
def topLines (program : Program) : List Line :=
  Statement.linesOfAll 1 program.standardVariables ++ program.declarationLines

/-- The lines that release the memory. -/
def cleanupLines (program : Program) : List Line := Statement.linesOfAll 1 program.cleanup

/-- The pointers to memory among the variables of the operators and their members. -/
def heapPointers (program : Program) : List (List Lexeme) :=
  program.declarationLines.flatMap fun line =>
    Memory.pointers (definitionLines program.sections.definitions) line.lexemes

/-- What the last part of the main function releases. -/
def freed (program : Program) : List (List Lexeme) :=
  program.cleanupLines.flatMap fun line => frees line.lexemes

/-- The main function releases the memory of all its variables. -/
structure ReleasesAll (program : Program) : Prop where
  /-- Every line at the top declares a variable, and no two lines the same. -/
  distinct : ∃ names : List (List Char),
    program.topLines.map (fun line => declared? line.lexemes) = names.map some ∧ names.Nodup
  /-- The type of every record is defined. -/
  defined : ∀ line ∈ program.declarationLines, ∀ type name,
    record? line.lexemes = some (type, name) →
      ∃ lines ∈ definitionLines program.sections.definitions, (members? type lines).isSome
  /-- Every pointer is released exactly once. -/
  once : ∀ pointer ∈ program.heapPointers, program.freed.count pointer = 1
  /-- Nothing else is released. -/
  nothingElse : ∀ place ∈ program.freed, place ∈ program.heapPointers
  /-- A macro that leads to the label in front of the last part is known to do so. -/
  macros : ∀ lines ∈ [Support.controlMacros, Support.checkMacro (isChecked program.request)],
    ∀ directive ∈ directives lines, jumps directive = true →
      ∃ word ∈ jumpWords, directive.take 2 = [.word "define".toList, .word word.toList]
  /-- Up to the last declaration, nothing leads to this label. -/
  early : ∃ before between after, program.runMain = before ++ program.topLines ++ between ++
      Support.plainLines ["kiln_done:"] ++ program.cleanupLines ++ after ∧
    ∀ line ∈ before ++ program.topLines, jumps line.lexemes = false

end Program

/-! ## Variables of operators -/

namespace Declaration

variable {declaration : Declaration}

/-- A regular declaration is read by its name. -/
theorem declared?_line (regular : declaration.IsRegular) :
    declared? declaration.line.lexemes = some declaration.name.text.toList := by
  have typed := isType_specifier regular
  rw [Scope.isType, Bool.and_eq_true] at typed
  obtain ⟨c, rest, tail, other⟩ := Scope.scan_of_isInitial declaration.isInitial_tail
  rw [lexemes_line regular, declared?, Code.lexemes, Code.lexemes, tail,
    Scope.declaration?_append typed.2 _ other]
  rfl

/-- No variable of a node is called like a word that jumps. -/
theorem jumps_line (regular : declaration.IsRegular) :
    jumps declaration.line.lexemes = false := by
  obtain ⟨node, ofNode⟩ := Option.isSome_iff_exists.1 regular.1.1
  have words : ∀ word ∈ jumpWords, Lexeme.isVariable word.toList = false := by decide
  have notJump : String.ofList declaration.name.text.toList ∉ jumpWords := by
    intro found
    have spelled := words _ found
    rw [String.toList_ofList, Name.isVariable_text ofNode] at spelled
    cases spelled
  rw [lexemes_line regular, jumps_append, jumps_word_eq_false notJump, Bool.or_eq_false_iff]
  have typed := regular.2
  cases declaration with
  | plain type name initial =>
    have types : ∀ type ∈ scalarTypes, jumps (type ++ " " : Code).lexemes = false := by
      decide
    have initials : ∀ initial ∈ initialTexts,
        jumps (" = " ++ (initial : Code) ++ ";" : Code).lexemes = false := by
      decide
    obtain ⟨scalar, initial, start, rfl⟩ := typed
    exact ⟨types type scalar, initials initial start⟩
  | buffer type name =>
    have types : ∀ type ∈ "const char *" :: scalarTypes,
        jumps (type ++ " *" : Code).lexemes = false := by
      decide
    have tail : jumps (" = NULL;" : Code).lexemes = false := by decide
    exact ⟨types type typed, tail⟩
  | record type name =>
    -- words that jump do not start like the names of types
    obtain ⟨rest, spelled⟩ := Name.exists_toList_text (Name.node?_of_isType typed)
    have others : ∀ word ∈ jumpWords, word.toList.head? ≠ some 'k' := by decide
    have notJump : String.ofList type.text.toList ∉ jumpWords := fun found =>
      others _ found (by rw [String.toList_ofList, spelled]; rfl)
    have tail : jumps (" = \x7b0\x7d;" : Code).lexemes = false := by decide
    refine ⟨?_, tail⟩
    rw [specifier, Code.lexemes, scan_typeName typed, jumps_word_eq_false notJump]
    rfl

end Declaration

namespace Sections.IsTidy

variable {sections : Sections} {owned : Name → Prop}

/-- The lines of the declarations declare the pointers of the sections. -/
theorem pointers_lines (tidy : sections.IsTidy owned) :
    ((sections.declarations.map Declaration.line).flatMap fun line =>
      Memory.pointers (definitionLines sections.definitions) line.lexemes) =
        sections.pointers.map Code.lexemes := by
  rw [List.flatMap_map, pointers, List.map_flatMap]
  exact List.flatMap_congr fun declaration member =>
    Declaration.pointers_lexemes (tidy.regular declaration member) tidy.regularDefinitions

/-- The variables are spelled differently. -/
theorem nodup_spelled (tidy : sections.IsTidy owned) :
    (sections.names.map fun name => name.text.toList).Nodup := by
  refine List.Nodup.map_on (fun name member name' _ same => ?_) tidy.distinct
  obtain ⟨declaration, found, rfl⟩ := List.mem_map.1 member
  obtain ⟨node, ofNode⟩ := Option.isSome_iff_exists.1 (tidy.regular declaration found).1.1
  exact Name.eq_of_toList_text_eq ofNode same

/-- The pointers of tidy sections are distinct. -/
theorem nodup_pointers (tidy : sections.IsTidy owned) :
    (sections.pointers.map Code.lexemes).Nodup := by
  rw [pointers, List.map_flatMap, List.nodup_flatMap]
  refine ⟨fun declaration found => ?_, ?_⟩
  · cases declaration with
    | plain => exact List.nodup_nil
    | buffer => exact List.nodup_singleton _
    | record type name =>
      have word : IsIdentifier name.text := (tidy.regular _ found).1.2
      rw [Declaration.pointers, List.map_map]
      refine List.Nodup.map_on (fun member inMembers member' inMembers' same => ?_)
        (tidy.distinctMembers type name found)
      have isMember := Declaration.isMember_of_mem_bufferMembers tidy.regularDefinitions inMembers
      have isMember' := Declaration.isMember_of_mem_bufferMembers tidy.regularDefinitions inMembers'
      rw [Function.comp, Function.comp, lexemes_member word isMember,
        lexemes_member word isMember'] at same
      simpa [String.toList_inj] using same
  · -- the pointers of a declaration start with its variable
    have starts : ∀ declaration ∈ sections.declarations,
        ∀ pointer ∈ (declaration.pointers sections.definitions).map Code.lexemes,
          pointer.head? = some (.word declaration.name.text.toList) := by
      intro declaration found pointer member
      obtain ⟨place, isPointer, rfl⟩ := List.mem_map.1 member
      exact (Declaration.isPlace_of_mem_pointers tidy.regularDefinitions isPointer).head?_lexemes
        (tidy.regular declaration found).1.2
    have different := tidy.nodup_spelled
    rw [names, List.map_map] at different
    refine (List.pairwise_map.1 different).imp_of_mem fun found found' different => ?_
    intro pointer member member'
    have same := (starts _ found _ member).symm.trans (starts _ found' _ member')
    exact different (Lexeme.word.inj (Option.some.inj same))

/-- The calls of `free` release the pointers in the order of their declarations. -/
theorem frees_lines (tidy : sections.IsTidy owned) :
    (sections.released.flatMap fun place => frees ("free(" ++ place ++ ");" : Code).lexemes) =
      sections.pointers.map Code.lexemes := by
  rw [tidy.released, List.map_eq_flatMap]
  refine List.flatMap_congr fun place found => ?_
  obtain ⟨declaration, declared, isPointer⟩ := List.mem_flatMap.1 found
  exact (Declaration.isPlace_of_mem_pointers tidy.regularDefinitions isPointer).frees_free
    (tidy.regular declaration declared).1.2

end Sections.IsTidy

/-! ## Variables of all programs -/

namespace Program

variable (program : Program)

/-- The variables that all programs for a request have. -/
def standardNames (request : Request) : List String :=
  ["kiln_status", "kiln_db", "kiln_out_path", "kiln_out", "kiln_arg"] ++
    (if request.has .countOnly then ["kiln_count"] else []) ++
    if request.has .profile then ["kiln_started", "kiln_loaded"] else []

/-- The directory of the tables is one lexeme. -/
theorem lexemes_database (database : String) :
    ("const char *kiln_db = " ++ .literal database ++ ";" : Code).lexemes =
      ("const char *kiln_db = " : Code).lexemes ++ [.literal, .sign ';'] := by
  have chars : ("const char *kiln_db = " ++ .literal database ++ ";" : Code).chars =
      "const char *kiln_db = ".toList ++ ((Code.stringLiteral database).toList ++ [';']) := by
    simp
  have front : Lexeme.after .outside "const char *kiln_db = ".toList = .outside ∧
      Lexeme.endsWord "const char *kiln_db = ".toList = false := by
    decide
  rw [Code.lexemes, chars, Lexeme.scan_append fun _ ends =>
      Bool.noConfusion (front.2.symm.trans ends),
    front.1, Lexeme.scan_append fun _ _ => rfl, Lexeme.scan_stringLiteral,
    Lexeme.after_stringLiteral, Code.lexemes, Code.chars_text]
  rfl

/-- What the database is called does not change the other lexemes. -/
theorem lexemes_standardVariables :
    (Statement.linesOfAll 1 program.standardVariables).map Line.lexemes =
      (Statement.linesOfAll 1 { program with database := "" }.standardVariables).map
        Line.lexemes := by
  simp only [standardVariables, linesOfAll_append, Statement.linesOfAll, Statement.lines,
    List.map_append, List.map_cons, Line.lexemes, lexemes_database]

/-- The variables of every main function are read by their names. -/
theorem declared?_standardVariables :
    (Statement.linesOfAll 1 program.standardVariables).map (fun line => declared? line.lexemes) =
      (standardNames program.request).map fun name => some name.toList := by
  have lexemes := congrArg (List.map declared?) program.lexemes_standardVariables
  rw [List.map_map, List.map_map] at lexemes
  refine lexemes.trans ?_
  simp only [standardVariables, standardNames, linesOfAll_append, List.map_append]
  refine congrArg₂ _ (congrArg₂ _ ?_ ?_) ?_
  · decide
  · cases program.request.has .countOnly <;> decide
  · cases program.request.has .profile <;> decide

/-- The declarations of every main function do not jump. -/
theorem jumps_standardVariables :
    ∀ line ∈ Statement.linesOfAll 1 program.standardVariables, jumps line.lexemes = false := by
  have none : ∀ lexemes ∈ (Statement.linesOfAll 1 program.standardVariables).map Line.lexemes,
      jumps lexemes = false := by
    rw [lexemes_standardVariables]
    simp only [standardVariables, linesOfAll_append, List.map_append, List.forall_mem_append]
    refine ⟨⟨?_, ?_⟩, ?_⟩
    · decide
    · cases program.request.has .countOnly <;> decide
    · cases program.request.has .profile <;> decide
  exact fun line member => none _ (List.mem_map_of_mem member)

/-- No variable of a node is called like a variable that all programs have. -/
theorem isVariable_standardNames (request : Request) :
    ∀ name ∈ standardNames request, Lexeme.isVariable name.toList = false := by
  rw [standardNames]
  cases request.has .countOnly <;> cases request.has .profile <;> decide

/-- The variables of every main function are distinct. -/
theorem nodup_standardNames (request : Request) :
    ((standardNames request).map String.toList).Nodup := by
  rw [standardNames]
  cases request.has .countOnly <;> cases request.has .profile <;> decide

/-- Every macro that jumps is one of the words that count as jumps. -/
theorem mem_jumpWords_of_jumps (checked : Bool) :
    ∀ lines ∈ [Support.controlMacros, Support.checkMacro checked],
      ∀ directive ∈ directives lines, jumps directive = true →
        ∃ word ∈ jumpWords, directive.take 2 = [.word "define".toList, .word word.toList] := by
  refine List.forall_mem_cons.2 ⟨?_, List.forall_mem_singleton.2 ?_⟩
  · decide
  · cases checked <;> decide

/-- Only the calls of `free` release something in the last part. -/
theorem freed_eq_flatMap : program.freed = program.sections.released.flatMap fun place =>
    frees ("free(" ++ place ++ ");" : Code).lexemes := by
  have others : (Statement.linesOfAll 1 [.control "if (kiln_out != stdout)" "fclose(kiln_out);",
      .control "else" "fflush(kiln_out);", .line "return kiln_status;"]).flatMap
        (fun line => frees line.lexemes) = [] := by
    decide
  rw [freed, cleanupLines, cleanup, linesOfAll_append, List.flatMap_append, others,
    List.append_nil, List.map_eq_flatMap, linesOfAll_flatMap, List.flatMap_assoc]
  refine List.flatMap_congr fun place _ => ?_
  rw [linesOfAll_singleton, Statement.lines, List.flatMap_singleton]
  rfl

variable {program} {owned : Name → Prop}

/-- The variables at the top are distinct, because those of the operators are variables of nodes. -/
theorem distinct_of_isTidy (tidy : program.sections.IsTidy owned) : ∃ names : List (List Char),
    program.topLines.map (fun line => declared? line.lexemes) = names.map some ∧ names.Nodup := by
  refine ⟨(standardNames program.request).map String.toList ++
    program.sections.names.map fun name => name.text.toList, ?_, ?_⟩
  · rw [topLines, List.map_append, declared?_standardVariables, List.map_append, List.map_map]
    refine congrArg _ ?_
    rw [declarationLines, List.map_map, Sections.names, List.map_map, List.map_map]
    exact List.map_congr_left fun declaration member =>
      Declaration.declared?_line (tidy.regular declaration member)
  · refine (nodup_standardNames program.request).append tidy.nodup_spelled ?_
    rintro chars standard spelled
    obtain ⟨name, isStandard, rfl⟩ := List.mem_map.1 standard
    obtain ⟨declared, member, same⟩ := List.mem_map.1 spelled
    obtain ⟨declaration, found, rfl⟩ := List.mem_map.1 member
    obtain ⟨node, ofNode⟩ := Option.isSome_iff_exists.1 (tidy.regular declaration found).1.1
    have other := isVariable_standardNames program.request name isStandard
    rw [← same, Name.isVariable_text ofNode] at other
    cases other

/-- The types of all records are found in the lines of the definitions. -/
theorem defined_of_isTidy (tidy : program.sections.IsTidy owned) :
    ∀ line ∈ program.declarationLines, ∀ type name, record? line.lexemes = some (type, name) →
      ∃ lines ∈ definitionLines program.sections.definitions, (members? type lines).isSome := by
  intro line member type name isRecord
  obtain ⟨declaration, found, rfl⟩ := List.mem_map.1 member
  have regular := tidy.regular declaration found
  cases declaration with
  | plain =>
    rw [record?_eq_none (Declaration.notMem_lexemes_line_plain regular).2] at isRecord
    cases isRecord
  | buffer type' name' =>
    rw [record?_eq_none (Declaration.notMem_lexemes_line_buffer regular)] at isRecord
    cases isRecord
  | record type' name' =>
    rw [Declaration.lexemes_line_record regular] at isRecord
    obtain ⟨rfl, -⟩ := Prod.mk.inj (Option.some.inj isRecord)
    obtain ⟨members, defined⟩ := tidy.defined type' name' found
    refine ⟨_, List.mem_map_of_mem defined, ?_⟩
    rw [Definition.members?_record (tidy.regularDefinitions _ defined)]
    rfl

/-- A program with tidy sections releases all memory. -/
theorem releasesAll_of_isTidy (tidy : program.sections.IsTidy owned) : program.ReleasesAll := by
  -- what is released are the pointers in the order of their declarations
  have freed : program.freed = program.heapPointers := by
    rw [freed_eq_flatMap, tidy.frees_lines]
    exact tidy.pointers_lines.symm
  have nodup : program.heapPointers.Nodup := by
    rw [heapPointers, declarationLines, tidy.pointers_lines]
    exact tidy.nodup_pointers
  refine ⟨distinct_of_isTidy tidy, defined_of_isTidy tidy, ?_, ?_, mem_jumpWords_of_jumps _, ?_⟩
  · intro pointer member
    rw [freed]
    exact List.count_eq_one_of_mem nodup member
  · rw [freed]
    exact fun place => id
  · let before := Support.plainLines ["int " ++ entryPoint ++ "(int argc, char **argv)", "\x7b"]
    let between := [.blank] ++ Statement.linesOfAll 1 program.start ++ [.blank] ++
      program.bodyLines ++ [.blank] ++ Statement.linesOfAll 1 program.finish
    refine ⟨before, between, Support.plainLines ["\x7d", ""], ?_, ?_⟩
    · simp only [runMain, topLines, declarationLines, cleanupLines, bodyLines, before, between,
        List.append_assoc]
    · have signature : ∀ line ∈ before, jumps line.lexemes = false := by decide
      refine List.forall_mem_append.2 ⟨signature, List.forall_mem_append.2
        ⟨program.jumps_standardVariables, fun line member => ?_⟩⟩
      obtain ⟨declaration, found, rfl⟩ := List.mem_map.1 member
      exact Declaration.jumps_line (tidy.regular declaration found)

end Program

namespace Plan

variable (plan : Plan) (request : Request) (vectorSize : Nat)

/-- The variables at the top of a program have different names, every pointer to memory among them
and among the members of their records is released once in the last part, nothing else is, and
nothing before the last declaration leads there. -/
theorem exists_releasesAll_program :
    ∃ program, plan.program request vectorSize = .ok program ∧ program.ReleasesAll := by
  obtain ⟨program, made, -⟩ := plan.yields_program request vectorSize
  exact ⟨program, made, Program.releasesAll_of_isTidy
    (plan.gives_isTidy_program request vectorSize program made)⟩

end Plan

end PlanCompiler
