import PlanCompiler.Proofs.Code.Vocabulary.Statements

/-!
# Definitions within vocabularies

Each function that is defined is known from there on, so that the vocabulary grows along the
definitions of a program. The lines of a part of the program say all that is needed of it: whatever
is read in them is allowed, directives stand in front of loops, and functions are defined once and
before they are called.

## Main definitions

* `Definition.IsWithin`, `Definition.InOrder`: definitions that keep within growing vocabularies;
* `Vocabulary.Extends`: lines that keep within a vocabulary and define some functions.

## Main results

* `Name.eq_of_text_eq_of_isFunction`: functions with one spelling are the same;
* `Vocabulary.Extends.append`: lines behind lines that define functions;
* `Definition.InOrder.extends`: the lines of definitions.
-/

namespace PlanCompiler

open Lexeme (scan applied)
open Text (Use uses DefinesInOrder DirectivesLead)

/-! ## Names of functions -/

namespace Name

/-- A name without the digits in it. -/
def stem (name : Name) : List Char := name.text.toList.filter fun c => !c.isDigit

/-- The digits in a name. -/
def digits (name : Name) : List Char := name.text.toList.filter Char.isDigit

/-- The function with some characters in its name and some digits. -/
def ofStem (stem digits : List Char) : Name :=
  let node := Nat.ofDigitChars 10 digits 0
  if stem = "kiln_load_s".toList then .loader node
  else if stem = "kiln_groups_hash".toList then .groupsHash node
  else if stem = "kiln_groups_grow".toList then .groupsGrow node
  else if stem = "kiln_groups_find".toList then .groupsFind node
  else
    (([.divide, .hashInt, .hashFloat, .hashText, .like, .hashCombine, .tableSize, .daysFromCivil,
      .printDate, .parseInt, .parseFloat, .parseDate, .readLine, .storeText, .split].map
        helper).find? fun name => name.stem = stem).getD .printRow

/-- The name of a function is found again from its characters and its digits. -/
theorem ofStem_stem {name : Name} (function : name.isFunction = true) :
    ofStem name.stem name.digits = name := by
  -- the digits are those of the number, if the name has one
  have number (node : Nat) : (Nat.toDigits 10 node).filter (fun c => !c.isDigit) = [] ∧
      (Nat.toDigits 10 node).filter Char.isDigit = Nat.toDigits 10 node := by
    have digits : ∀ c ∈ Nat.toDigits 10 node, c.isDigit = true :=
      fun c => Numeral.isDigit_of_mem_toDigits
    exact ⟨List.filter_eq_nil_iff.2 fun c member => by simp [digits c member],
      List.filter_eq_self.2 digits⟩
  cases name with
  | ofNode | resultRow | tableType | groupsType => cases function
  | loader node | groupsHash node | groupsGrow node | groupsFind node =>
    simp [ofStem, stem, digits, text, number]
  | printRow => decide +kernel
  | helper helper => cases helper <;> decide +kernel

/-- The names of functions start with `kiln_`. -/
theorem ownWord?_of_isFunction {name : Name} (function : name.isFunction = true) :
    (Lexeme.word name.text.toList).ownWord? = some name.text.toList := by
  refine if_pos ?_
  cases name with
  | ofNode | resultRow | tableType | groupsType => cases function
  | loader node | groupsHash node | groupsGrow node | groupsFind node =>
    simp [text]
  | printRow => decide +kernel
  | helper helper => cases helper <;> decide +kernel

/-- Functions with one spelling are the same. -/
theorem eq_of_text_eq_of_isFunction {f g : Name} (first : f.isFunction = true)
    (second : g.isFunction = true) (same : f.text = g.text) : f = g := by
  rw [← ofStem_stem first, ← ofStem_stem second, stem, digits, stem, digits, same]

end Name

/-! ## Lines -/

/-- Code starts with the first character of the fixed text in front. -/
theorem Code.head?_chars_append {fixed : String} {c : Char} {rest : List Char} {code : Code}
    (spelled : String.ofList (c :: rest) = fixed) :
    ((fixed : Code) ++ code).chars.head? = some c := by
  rw [chars_append, chars_text, toList_of_spelled spelled]
  rfl

/-- The characters of a line, without the line feed at its end. -/
def Line.chars (line : Line) : List Char := List.replicate line.indent '\t' ++ line.code.chars

namespace Line

/-- Indentation adds no lexemes. -/
theorem scan_chars (line : Line) : scan .outside line.chars = scan .outside line.code.chars :=
  Scope.scan_tabs _ _

/-- The line does not start with an opening brace, indented or not. -/
def OpensNothing (line : Line) : Prop := line.chars.head? ≠ some '\x7b'

/-- An indented line does not start with a brace. -/
theorem opensNothing_of_lt {line : Line} (indented : 0 < line.indent) : line.OpensNothing := by
  obtain ⟨indent, code⟩ := line
  cases indent with
  | zero => cases indented
  | succ indent => exact nofun

/-- A blank line does not start with a brace. -/
theorem opensNothing_blank : OpensNothing .blank := nofun

/-- A line does not start with a brace if its code does not. -/
theorem opensNothing_of_head? {code : Code} (other : code.chars.head? ≠ some '\x7b')
    (indent : Nat) : OpensNothing { indent, code } := by
  cases indent with
  | zero => exact other
  | succ indent => exact opensNothing_of_lt (Nat.succ_pos indent)

end Line

namespace Lexeme.ReadsWithin

variable {v : Vocabulary}

/-- A line is read within a vocabulary if its code is. -/
theorem of_indented {line : Line} (reads : ReadsWithin v line.code.chars) :
    ReadsWithin v line.chars where
  sameLine := by
    rw [Line.chars, List.mem_append, not_or]
    exact ⟨fun tab => absurd (List.eq_of_mem_replicate tab) (by decide), reads.sameLine⟩
  outside := by
    have tabs : after .outside (List.replicate line.indent '\t') = .outside :=
      after_of_notMem fun quote => absurd (List.eq_of_mem_replicate quote) (by decide)
    rw [Line.chars, after_append, tabs, reads.outside]
  calls := by
    rw [line.scan_chars]
    exact reads.calls
  words := by
    rw [line.scan_chars]
    exact reads.words

/-- A line read within a vocabulary is so behind further definitions. -/
theorem define {chars : List Char} (reads : ReadsWithin v chars) (functions : List Name) :
    ReadsWithin (v.define functions) chars where
  sameLine := reads.sameLine
  outside := reads.outside
  calls function member := by
    obtain ⟨name, known, same⟩ := reads.calls function member
    exact ⟨name, List.mem_append_left _ known, same⟩
  words word member := (reads.words word member).define functions

end Lexeme.ReadsWithin

/-- All lines of a head are indented alike. -/
theorem Head.indent_of_mem_lines {head : Head} {indent : Nat} {line : Line}
    (member : line ∈ head.lines indent) : line.indent = indent := by
  cases head with
  | bare | control => exact List.mem_singleton.1 member ▸ rfl
  | loop directive index start test step =>
    rcases List.mem_append.1 member with member | member
    · cases directive with
      | none => cases member
      | some code => exact List.mem_singleton.1 member ▸ rfl
    · exact List.mem_singleton.1 member ▸ rfl

namespace Statement

/-- Closing a block in front of some lines opens none. -/
theorem opensNothing_of_mem_closeBefore {lines : List Line}
    (all : ∀ line ∈ lines, line.OpensNothing) : ∀ line ∈ closeBefore lines, line.OpensNothing := by
  cases lines with
  | nil => exact all
  | cons first rest =>
    refine List.forall_mem_cons.2 ⟨?_, (List.forall_mem_cons.1 all).2⟩
    obtain ⟨indent, code⟩ := first
    refine Line.opensNothing_of_head? ?_ indent
    rw [Code.head?_chars_append (rfl : String.ofList _ = "\x7d ")]
    exact fun same => absurd (Option.some.inj same) (by decide)

mutual

/-- The lines of a statement that is indented. -/
theorem opensNothing_of_mem_lines {statement : Statement} {indent : Nat} {line : Line}
    (member : line ∈ statement.lines (indent + 1)) : line.OpensNothing := by
  have indented (code : Code) : ({ indent := indent + 1, code } : Line).OpensNothing :=
    Line.opensNothing_of_lt (Nat.succ_pos _)
  -- each line that is not blank is indented, so a tab stands where the brace would stand
  cases statement with
  | blank => exact List.mem_singleton.1 member ▸ Line.opensNothing_blank
  | line code => exact List.mem_singleton.1 member ▸ indented code
  | declare specifier name rest => exact List.mem_singleton.1 member ▸ indented _
  | control head action =>
    rcases List.mem_cons.1 member with rfl | member
    · exact indented _
    · exact List.mem_singleton.1 member ▸ Line.opensNothing_of_lt (Nat.succ_pos _)
  | continued first rest =>
    rcases List.mem_cons.1 member with rfl | member
    · exact indented _
    · obtain ⟨code, -, rfl⟩ := List.mem_map.1 member
      exact Line.opensNothing_of_lt (Nat.succ_pos _)
  | block head body =>
    rw [lines, List.mem_append, List.mem_append] at member
    obtain (member | member) | member := member
    · exact Line.opensNothing_of_lt (head.indent_of_mem_lines member ▸ Nat.succ_pos _)
    · exact opensNothing_of_mem_linesOfAll member
    · exact List.mem_singleton.1 member ▸ indented _
  | branch condition body otherwise =>
    rw [lines, List.mem_cons, List.mem_append] at member
    obtain rfl | member | member := member
    · exact indented _
    · exact opensNothing_of_mem_linesOfAll member
    · exact opensNothing_of_mem_closeBefore (fun line => opensNothing_of_mem_lines) line member

/-- Indented statements have no line that starts with a brace. -/
theorem opensNothing_of_mem_linesOfAll {statements : List Statement} {indent : Nat} {line : Line}
    (member : line ∈ linesOfAll (indent + 1) statements) : line.OpensNothing := by
  cases statements with
  | nil => cases member
  | cons first rest =>
    rcases List.mem_append.1 member with member | member
    · exact opensNothing_of_mem_lines member
    · exact opensNothing_of_mem_linesOfAll member

end

end Statement

/-! ## Lines that define functions -/

/-- The spellings of the functions of a vocabulary. -/
def Vocabulary.known (v : Vocabulary) : List (List Char) :=
  v.functions.map fun function => function.text.toList

/-- Some lines keep within a vocabulary and define some functions, which they may call as well. -/
structure Vocabulary.Extends (v : Vocabulary) (functions : List Name) (lines : List Line) :
    Prop where
  /-- Whatever is read in the lines is allowed. -/
  reads : ∀ line ∈ lines, Lexeme.ReadsWithin (v.define functions) line.chars
  /-- Directives stand in front of loops. -/
  directed : DirectivesLead v.directives (lines.map Line.chars)
  /-- Functions are defined before they are called. -/
  ordered : DefinesInOrder v.known (uses (lines.map Line.chars))
  /-- These functions are defined. -/
  defined : Text.defined (uses (lines.map Line.chars)) =
    functions.map fun function => function.text.toList
  /-- The line in front of these lines is not the heading of a definition. -/
  begins : (lines.map Line.chars).head? ≠ some ['\x7b']

namespace Code.AllWithin

variable {v : Vocabulary}

/-- Each code of those within a vocabulary is read within it. -/
theorem reads {codes : List Code} (within : AllWithin v codes) :
    ∀ code ∈ codes, Lexeme.ReadsWithin v code.chars := by
  induction within with
  | nil => exact List.forall_mem_nil _
  | cons within _ ih => exact List.forall_mem_cons.2 ⟨within.reads, ih⟩
  | directed allowed isDirective within isLoop _ ih =>
    exact List.forall_mem_cons.2 ⟨isDirective.reads, List.forall_mem_cons.2 ⟨within.reads, ih⟩⟩

/-- The directives of lines within a vocabulary lead their lines. -/
theorem directivesLead {lines : List Line} (within : AllWithin v (lines.map Line.code)) :
    DirectivesLead v.directives (lines.map Line.chars) := by
  have noDirective {line : Line} (within : line.code.IsWithin v) :
      Text.isDirective line.chars = false :=
    Text.isDirective_eq_false (line.scan_chars ▸ within.pragmaWord_notMem)
  -- the induction is on how the codes are admitted: alone, or behind their directive
  generalize same : lines.map Line.code = codes at within
  induction within generalizing lines with
  | nil =>
    obtain rfl := List.map_eq_nil_iff.1 same
    trivial
  | cons within _ ih =>
    obtain ⟨line, rest, rfl, rfl, others⟩ := List.map_eq_cons_iff.1 same
    exact ⟨fun directive => absurd ((noDirective within).symm.trans directive) nofun, ih others⟩
  | directed allowed isDirective within isLoop _ ih =>
    obtain ⟨line, behind, rfl, rfl, behindSame⟩ := List.map_eq_cons_iff.1 same
    obtain ⟨next, rest, rfl, rfl, others⟩ := List.map_eq_cons_iff.1 behindSame
    refine ⟨fun _ => ⟨allowed, next.chars, rfl, ?_⟩, fun directive => ?_, ih others⟩
    · rwa [Text.isLoop, next.scan_chars]
    · exact absurd ((noDirective within).symm.trans directive) nofun

end Code.AllWithin

namespace Vocabulary.Extends

variable {v : Vocabulary} {functions functions' : List Name} {lines lines' : List Line}

/-- No lines extend a vocabulary by nothing. -/
theorem nil : v.Extends [] [] where
  reads := List.forall_mem_nil _
  directed := trivial
  ordered := trivial
  defined := rfl
  begins := nofun

/-- Lines extend a vocabulary one after the other. -/
theorem append (first : v.Extends functions lines)
    (second : (v.define functions).Extends functions' lines') :
    v.Extends (functions ++ functions') (lines ++ lines') := by
  have together := v.define_define functions functions'
  -- what the first lines define, the second may use
  have known : (v.define functions).known =
      v.known ++ functions.map fun function => function.text.toList :=
    List.map_append
  have reads := second.reads
  rw [together] at reads
  constructor
  · refine List.forall_mem_append.2 ⟨fun line member => ?_, reads⟩
    exact together ▸ (first.reads line member).define functions'
  · rw [List.map_append]
    exact first.directed.append second.directed
  · rw [List.map_append, Text.uses_append second.begins]
    refine first.ordered.append ?_
    rw [first.defined, ← known]
    exact second.ordered
  · rw [List.map_append, Text.uses_append second.begins, Text.defined_append, first.defined,
      second.defined, List.map_append]
  · cases lines with
    | nil => exact second.begins
    | cons line rest => exact first.begins

/-- Lines that define nothing, in front of others. -/
theorem append_left (first : v.Extends [] lines) (second : v.Extends functions lines') :
    v.Extends functions (lines ++ lines') :=
  append first (v.define_nil.symm ▸ second)

/-- Lines that define nothing. -/
theorem of_reads (reads : ∀ line ∈ lines, Lexeme.ReadsWithin v line.chars)
    (directed : DirectivesLead v.directives (lines.map Line.chars))
    (opens : ∀ line ∈ lines, line.OpensNothing) : v.Extends [] lines := by
  have noBrace : ['\x7b'] ∉ lines.map Line.chars := by
    intro member
    obtain ⟨line, found, same⟩ := List.mem_map.1 member
    exact opens line found (congrArg List.head? same)
  -- a use is a definition only if a brace is on the next line
  have calls {use : Use} (member : use ∈ uses (lines.map Line.chars)) : use.defines = false :=
    Text.defines_eq_false_of_mem_uses (fun brace => noBrace (List.mem_of_mem_tail brace)) member
  constructor
  · rwa [define_nil]
  · exact directed
  · refine .of_forall fun use member => ⟨calls member, ?_⟩
    obtain ⟨chars, found, called⟩ := Text.exists_of_mem_uses member
    obtain ⟨line, inside, rfl⟩ := List.mem_map.1 found
    obtain ⟨name, known, spelled⟩ := (reads line inside).calls _ called
    exact List.mem_map.2 ⟨name, known, spelled⟩
  · exact Text.defined_of_forall fun use => calls
  · exact fun first => noBrace (List.mem_of_mem_head? first)

/-- Lines within a vocabulary that define nothing. -/
theorem of_allWithin (within : Code.AllWithin v (lines.map Line.code))
    (opens : ∀ line ∈ lines, line.OpensNothing) : v.Extends [] lines :=
  of_reads (fun line member => (within.reads line.code (List.mem_map_of_mem member)).of_indented)
    within.directivesLead opens

/-- Lines without directives that define nothing. -/
theorem of_forall (within : AllOf (Code.IsWithin v) (lines.map Line.code))
    (opens : ∀ line ∈ lines, line.OpensNothing) : v.Extends [] lines :=
  .of_allWithin (.of_forall within) opens

/-- A blank line extends a vocabulary by nothing. -/
theorem blank : v.Extends [] [.blank] :=
  .of_forall (by simp [Line.blank]) (List.forall_mem_singleton.2 Line.opensNothing_blank)

/-- A line with a fixed text. -/
theorem text {fixed : String} (within : (Piece.text fixed).IsWithin v)
    (opens : fixed.toList.head? ≠ some '\x7b') : v.Extends [] [{ indent := 0, code := fixed }] :=
  .of_forall (AllOf.cons_iff.2 ⟨Code.isWithin_text.2 within, .nil⟩)
    (List.forall_mem_singleton.2 (Line.opensNothing_of_head? (Code.chars_text fixed ▸ opens) 0))

/-- A heading, the opening brace behind it, and what follows. The heading is that of a function, or
of one whose name does not count. -/
theorem headed {name? : Option Name} {heading : Code}
    (within : heading.IsWithin (v.define name?.toList))
    (called : applied (scan .outside heading.chars) =
      name?.toList.map fun name => name.text.toList)
    (opens : heading.chars.head? ≠ some '\x7b')
    (fresh : ∀ name ∈ name?, name.text.toList ∉ v.known)
    (behind : (v.define name?.toList).Extends [] lines) :
    v.Extends name?.toList
      ({ indent := 0, code := heading } :: { indent := 0, code := "\x7b" } :: lines) := by
  have brace : ("\x7b" : Code).chars = ['\x7b'] :=
    (Code.chars_text _).trans (toList_of_spelled rfl)
  have braceWithin : ("\x7b" : Code).IsWithin (v.define name?.toList) := by
    simp (disch := first | decide | exact rfl)
  have known : (v.define name?.toList).known =
      v.known ++ name?.toList.map fun name => name.text.toList := List.map_append
  -- only the heading defines a function
  have used : uses (({ indent := 0, code := heading } :: { indent := 0, code := "\x7b" } ::
      lines : List Line).map Line.chars) =
        (name?.toList.map fun name => { function := name.text.toList, defines := true }) ++
          uses (lines.map Line.chars) := by
    have headingChars : Line.chars { indent := 0, code := heading } = heading.chars := rfl
    have braceChars : Line.chars { indent := 0, code := "\x7b" } = ['\x7b'] := brace
    rw [List.map_cons, List.map_cons, headingChars, braceChars, uses, uses, called, List.map_map]
    rfl
  have noDirective {code : Code} (within : code.IsWithin (v.define name?.toList)) :
      Text.isDirective (Line.chars { indent := 0, code }) = false :=
    Text.isDirective_eq_false within.pragmaWord_notMem
  have reads := behind.reads
  rw [define_nil] at reads
  constructor
  · exact List.forall_mem_cons.2 ⟨within.reads.of_indented,
      List.forall_mem_cons.2 ⟨braceWithin.reads.of_indented, reads⟩⟩
  · have heads : DirectivesLead v.directives (List.map Line.chars [{ indent := 0, code := heading },
        { indent := 0, code := "\x7b" }]) :=
      .of_forall (List.forall_mem_cons.2 ⟨noDirective within,
        List.forall_mem_singleton.2 (noDirective braceWithin)⟩)
    exact heads.append behind.directed
  · rw [used]
    cases name? with
    | none =>
      have ordered := behind.ordered
      rwa [known, Option.toList_none, List.map_nil, List.append_nil] at ordered
    | some name => exact ⟨fresh name rfl, known ▸ behind.ordered⟩
  · rw [used, Text.defined_append, behind.defined]
    cases name? <;> rfl
  · exact fun first => opens (congrArg List.head? (Option.some.inj first))

end Vocabulary.Extends

/-! ## Definitions -/

/-- The line of a member keeps within a vocabulary. -/
def Member.IsWithin (v : Vocabulary) (member : Member) : Prop := member.line.code.IsWithin v

namespace Member

variable {v : Vocabulary} {type name : String}

/-- A size member is within a vocabulary exactly if its name is. -/
@[simp]
theorem isWithin_size : (size name).IsWithin v ↔ (Piece.text name).IsWithin v := by
  have type : ("size_t" : Code).lexemesByPiece = [.word ['s', 'i', 'z', 'e', '_', 't']] :=
    Code.lexemesByPiece_text (rfl : String.ofList _ = "size_t")
  have named : ("size_t" ++ " " ++ name : Code).IsWithin v ↔ (Piece.text name).IsWithin v := by
    rw [Code.isWithin_append_blank_append fun _ last found => ?_]
    · simp (disch := first | decide | exact rfl)
    · rw [type] at found
      obtain rfl := Option.some.inj found
      rfl
  simp (disch := first | decide | exact rfl) [IsWithin, line, size, named]

/-- A buffer member is within a vocabulary exactly if its type and its name are. -/
@[simp]
theorem isWithin_buffer :
    (buffer type name).IsWithin v ↔
      (Piece.text type).IsWithin v ∧ (Piece.text name).IsWithin v := by
  simp (disch := first | decide | exact rfl) [IsWithin, line, buffer]

end Member

namespace Definition

/-- The function that is defined. -/
def function? : Definition → Option Name
  | .function _ _ name _ _ => some name
  | .record .. | .global _ => none

/-- A definition keeps within the vocabulary in front of it. A function is also known in its own
body, but its parameters mention none at all. -/
def IsWithin (v : Vocabulary) : Definition → Prop
  | .record name members =>
    name.IsWithin v ∧ AllOf (Member.IsWithin v) members
  | .global code => code.IsWithin v ∧ code.chars.head? ≠ some '\x7b'
  | .function comment result name parameters body =>
    (∀ text ∈ comment, (Piece.text text).IsWithin v ∧ text.toList.head? ≠ some '\x7b') ∧
      ((Piece.text result).IsWithin v ∧ Lexeme.startsWord result.toList = true) ∧
      name.isFunction = true ∧
      (∀ functions, AllOf (Code.IsWithin { v with functions }) parameters) ∧
      Code.AllWithin (v.define [name]) (Statement.codesOfAll body)

/-- The line with the name of a function. -/
def heading (result : String) (name : Name) (parameters : List Code) : Code :=
  result ++ " " ++ name ++ "(" ++ .separated ", " parameters ++ ")"

/-- The line with a function's name is a call with the result's type in front. -/
theorem heading_eq (result : String) (name : Name) (parameters : List Code) :
    heading result name parameters = result ++ " " ++ .call name parameters := by
  simp only [heading, Code.call, Code.append_append]

section

variable {v : Vocabulary} {result : String} {name : Name} {parameters : List Code}
  (resultWithin : (Piece.text result).IsWithin v) (isFunction : name.isFunction = true)
  (parametersWithin : ∀ functions, AllOf (Code.IsWithin { v with functions }) parameters)
include resultWithin isFunction parametersWithin

/-- A function's heading is within the vocabulary that knows the function exactly if its result and
its parameters are. -/
theorem isWithin_heading : (heading result name parameters).IsWithin (v.define [name]) := by
  have known : name ∈ (v.define [name]).functions :=
    List.mem_append_right _ List.mem_cons_self
  have type : (result : Code).IsWithin (v.define [name]) := Code.isWithin_text.2 resultWithin
  have call := (Code.isWithin_call isFunction).2 ⟨known, parametersWithin _⟩
  rw [heading_eq]
  refine (Code.isWithin_append_blank_append fun opens => ?_).2 ⟨type, call⟩
  rw [Code.head?_lexemesByPiece_call (Name.isIdentifier_of_isFunction isFunction)] at opens
  cases opens

/-- Nothing but the function itself stands in front of a parenthesis. -/
theorem applied_heading :
    applied (scan .outside (heading result name parameters).chars) = [name.text.toList] := by
  have word : IsIdentifier name.text := Name.isIdentifier_of_isFunction isFunction
  -- neither the type of the result nor the parameters call anything
  have type : (result ++ " " : Code).calls = [] := by
    have within : (result ++ " " : Code).IsWithin { v with functions := [] } := by
      have result : (Piece.text result).IsWithin { v with functions := [] } := resultWithin
      simp (disch := first | decide | exact rfl) [result]
    exact within.calls_eq_nil rfl
  have arguments : (Code.separated ", " parameters).calls = [] := by
    refine Code.IsWithin.calls_eq_nil (v := { v with functions := [] }) ?_ rfl
    refine (Code.isWithin_separated (rfl : String.ofList _ = ", ") (by decide) (by decide)
      (Piece.isWithin_text rfl (by decide))).2 (parametersWithin [])
  rw [Code.scan_chars (isWithin_heading resultWithin isFunction parametersWithin).isWhole]
  show (heading result name parameters).calls = _
  rw [heading_eq, Code.calls_append, type, Code.calls_call word, arguments,
    Name.ownWord?_of_isFunction isFunction]
  · rfl
  · rw [Code.head?_lexemesByPiece_call word]
    exact nofun

end

/-- A heading starts with a type. -/
theorem head?_chars_heading {result : String} (starts : Lexeme.startsWord result.toList = true)
    (name : Name) (parameters : List Code) :
    (heading result name parameters).chars.head? ≠ some '\x7b' := by
  rw [heading_eq, ← Code.append_append, Code.chars_append, Code.chars_text]
  cases spelled : result.toList with
  | nil => exact absurd (spelled ▸ starts) (by decide)
  | cons c rest =>
    have wordChar : Lexeme.isWordChar c = true := by
      rw [spelled] at starts
      exact starts
    rintro ⟨⟩
    exact absurd wordChar (by decide)

variable {v : Vocabulary} {definition : Definition}

/-- A record extends a vocabulary by nothing. -/
theorem extends_record {name : Name} {members : List Member} (nameWithin : name.IsWithin v)
    (membersWithin : AllOf (Member.IsWithin v) members) :
    v.Extends [] (record name members).lines := by
  refine .of_forall ?_ ?_
  · have each : ∀ member ∈ members, member.line.code.IsWithin v := membersWithin
    rw [← codes, codes_record]
    simpa (disch := first | decide | exact rfl) [nameWithin] using each
  · -- the opening brace of a record is at the end of its first line
    rw [lines]
    refine List.forall_mem_cons.2 ⟨Line.opensNothing_of_head? ?_ 0,
      List.forall_mem_append.2 ⟨List.forall_mem_map.2 fun member _ =>
        Line.opensNothing_of_lt Nat.one_pos, List.forall_mem_cons.2
          ⟨Line.opensNothing_of_head? ?_ 0, List.forall_mem_singleton.2 Line.opensNothing_blank⟩⟩⟩
    · rw [Code.chars_text, toList_of_spelled (rfl : String.ofList _ = "typedef struct \x7b")]
      exact fun same => absurd (Option.some.inj same) (by decide)
    · rw [← Code.append_append,
        Code.head?_chars_append (rfl : String.ofList _ = "\x7d ")]
      exact fun same => absurd (Option.some.inj same) (by decide)

/-- A comment extends a vocabulary by nothing. -/
theorem extends_comment {comment : List String} (within : ∀ text ∈ comment,
    (Piece.text text).IsWithin v ∧ text.toList.head? ≠ some '\x7b') :
    v.Extends [] (comment.map fun (text : String) => { indent := 0, code := text }) := by
  refine .of_forall ?_ ?_
  · rw [List.map_map]
    exact List.forall_mem_map.2 fun text member => Code.isWithin_text.2 (within text member).1
  · refine List.forall_mem_map.2 fun text member => Line.opensNothing_of_head? ?_ 0
    rw [Code.chars_text]
    exact (within text member).2

/-- The lines of a function behind its heading and the opening brace. -/
theorem extends_body {body : List Statement}
    (within : Code.AllWithin v (Statement.codesOfAll body)) :
    v.Extends [] (Statement.linesOfAll 1 body ++ [{ indent := 0, code := "\x7d" }, .blank]) := by
  refine .of_allWithin ?_ (List.forall_mem_append.2
    ⟨fun line => Statement.opensNothing_of_mem_linesOfAll, List.forall_mem_cons.2
      ⟨Line.opensNothing_of_head? ?_ 0, List.forall_mem_singleton.2 Line.opensNothing_blank⟩⟩)
  · rw [List.map_append, Statement.map_code_linesOfAll]
    refine within.append (.of_forall ?_)
    simp (disch := first | decide | exact rfl) [Line.blank]
  · rw [Code.chars_text, toList_of_spelled (rfl : String.ofList _ = "\x7d")]
    exact fun same => absurd (Option.some.inj same) (by decide)

/-- The lines of a definition, which may define a function that is not known yet. -/
theorem IsWithin.extends (within : definition.IsWithin v)
    (fresh : ∀ name ∈ definition.function?, name.text.toList ∉ v.known) :
    v.Extends definition.function?.toList definition.lines := by
  cases definition with
  | record name members => exact extends_record within.1 within.2
  | global code =>
    obtain ⟨codeWithin, opens⟩ := within
    have line : v.Extends [] [{ indent := 0, code }] :=
      .of_allWithin (.cons codeWithin .nil)
        (List.forall_mem_singleton.2 (Line.opensNothing_of_head? opens 0))
    exact line.append_left .blank
  | function comment result name parameters body =>
    obtain ⟨commentWithin, ⟨resultWithin, starts⟩, isFunction, parametersWithin, bodyWithin⟩ :=
      within
    -- the function is known from its heading on
    have defined : v.Extends (some name).toList _ := .headed
      (isWithin_heading resultWithin isFunction parametersWithin)
      (applied_heading resultWithin isFunction parametersWithin)
      (head?_chars_heading starts name parameters) fresh (extends_body bodyWithin)
    have all := (extends_comment commentWithin).append_left defined
    simpa [lines, Statement.lines, Head.lines, heading, function?] using all

/-- The functions that some definitions define. -/
def functions (definitions : List Definition) : List Name := definitions.filterMap function?

/-- Each definition keeps within the vocabulary that those in front of it make. -/
def InOrder (v : Vocabulary) : List Definition → Prop
  | [] => True
  | first :: rest => first.IsWithin v ∧ InOrder (v.define first.function?.toList) rest

variable {definitions definitions' : List Definition}

/-- The functions of a first definition and of the others. -/
theorem functions_cons :
    functions (definition :: definitions) =
      definition.function?.toList ++ functions definitions := by
  rw [functions, List.filterMap_cons]
  cases definition.function? <;> rfl

/-- The functions of definitions in a row. -/
theorem functions_append :
    functions (definitions ++ definitions') = functions definitions ++ functions definitions' :=
  List.filterMap_append

/-- Definitions are in order in a row if the second ones are so behind the first ones. -/
theorem InOrder.append (first : InOrder v definitions)
    (second : InOrder (v.define (functions definitions)) definitions') :
    InOrder v (definitions ++ definitions') := by
  induction definitions generalizing v with
  | nil => exact v.define_nil ▸ second
  | cons definition rest ih =>
    refine ⟨first.1, ih first.2 ?_⟩
    rwa [Vocabulary.define_define, ← functions_cons]

/-- Definitions that keep within all larger vocabularies. -/
theorem InOrder.of_forall
    (each : ∀ definition ∈ definitions, ∀ functions, definition.IsWithin (v.define functions)) :
    InOrder v definitions := by
  induction definitions generalizing v with
  | nil => trivial
  | cons definition rest ih =>
    obtain ⟨first, others⟩ := List.forall_mem_cons.1 each
    refine ⟨v.define_nil ▸ first [], ih fun other member functions => ?_⟩
    rw [Vocabulary.define_define]
    exact others other member _

/-- The lines of definitions of different functions. -/
theorem InOrder.extends (ordered : InOrder v definitions)
    (distinct : (v.functions ++ functions definitions).Nodup)
    (areFunctions : ∀ name ∈ v.functions ++ functions definitions, name.isFunction = true) :
    v.Extends (functions definitions) (definitions.flatMap lines) := by
  induction definitions generalizing v with
  | nil => exact .nil
  | cons definition rest ih =>
    rw [functions_cons, ← List.append_assoc] at distinct areFunctions
    rw [functions_cons, List.flatMap_cons]
    refine (ordered.1.extends fun name defined known => ?_).append
      (ih ordered.2 distinct areFunctions)
    -- a function with the spelling of a known one would be that function
    obtain ⟨other, found, same⟩ := List.mem_map.1 known
    have here : name ∈ definition.function?.toList := Option.mem_toList.2 defined
    have equal : other = name := by
      refine Name.eq_of_text_eq_of_isFunction ?_ ?_ (String.toList_inj.1 same)
      · exact areFunctions other (List.mem_append_left _ (List.mem_append_left _ found))
      · exact areFunctions name (List.mem_append_left _ (List.mem_append_right _ here))
    have apart := (List.nodup_append.1 (List.nodup_append.1 distinct).1).2.2
    exact apart other found name here equal

end Definition

end PlanCompiler
