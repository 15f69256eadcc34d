import PlanCompiler.Proofs.Code.Lines
import PlanCompiler.Proofs.Code.Seams

/-!
# Quiet code

Most code of a program does not mention checked division: its fixed texts do not, its names are
others, and what stands in string literals is no name at all. None of its pieces ends inside of a
literal either. The lemmas of this module take code and statements apart until fixed texts are left,
whose characters are then gone through one by one.

## Main definitions

* `Code.IsQuiet`: code that does not mention checked division;
* `Statement.IsQuiet`, `Step.IsQuiet`: the same for the lines of statements.

## Main results

* `Code.IsQuiet.notMem_lexemesByPiece`: the name of checked division is no lexeme of such code.
-/

namespace PlanCompiler

open Lexeme (scan after startsWord endsWord)

/-! ## Pieces -/

/-- The name of the function for checked divisions. -/
def divideWord : List Char := ['k', 'i', 'l', 'n', '_', 'i', 'd', 'i', 'v']

/-- The division helper is spelled by the word that the quiet vocabulary leaves out. -/
theorem toList_text_divide : (Name.helper .divide).text.toList = divideWord :=
  toList_of_spelled rfl

/-- The characters of a text that can be read on its own and does not mention checked division. -/
def isQuietText (chars : List Char) : Bool :=
  Piece.isWholeText chars && !(scan .outside chars).contains (.word divideWord)

/-- The test reads off both halves: the text lexes as a whole, and the division word is not in it.
-/
theorem isQuietText_iff {chars : List Char} :
    isQuietText chars = true ↔
      Piece.isWholeText chars = true ∧ .word divideWord ∉ scan .outside chars := by
  simp [isQuietText]

/-- Without quotes and backslashes, and without one of the characters of its name, nothing mentions
checked division. -/
theorem isQuietText_of_notMem {chars : List Char} {c : Char} (nonempty : chars ≠ [])
    (noQuote : '"' ∉ chars) (noBackslash : '\\' ∉ chars) (needed : c ∈ divideWord)
    (missing : c ∉ chars) : isQuietText chars = true := by
  have plain : ∀ d ∈ chars, Spot.IsPlainChar d := by
    intro d member
    exact ⟨ne_of_mem_of_not_mem member noQuote, ne_of_mem_of_not_mem member noBackslash⟩
  refine isQuietText_iff.2 ⟨Piece.isWholeText_iff.2 ⟨nonempty, Lexeme.after_of_notMem noQuote,
    Spot.after_of_isPlainChar plain rfl⟩, fun member => ?_⟩
  exact missing (Lexeme.mem_of_word_mem_scan member needed)

/-- A fixed text spelled by word characters is an identifier. -/
@[simp]
theorem isIdentifier_of_spelled {fixed : String} {chars : List Char}
    (spelled : String.ofList chars = fixed) (word : chars.all Lexeme.isWordChar = true) :
    IsIdentifier fixed := by
  rw [IsIdentifier, toList_of_spelled spelled]
  exact List.all_eq_true.1 word

/-- A name other than that of checked division, whose part, if it has one, is a part of words. -/
def Name.IsQuiet : Name → Prop
  | .ofNode _ _ (some part) => IsIdentifier part
  | .helper function => function ≠ .divide
  | _ => True

namespace Name

section

variable {owner : Owner} {node : Nat} {part : String}

/-- A node's name with a part is quiet exactly if the part is an identifier. -/
@[simp]
theorem isQuiet_ofNode_some : (ofNode owner node (some part)).IsQuiet ↔ IsIdentifier part := .rfl

/-- A node's name without a part is quiet. -/
@[simp]
theorem isQuiet_ofNode_none : (ofNode owner node none).IsQuiet := trivial

/-- The result row's type name is quiet. -/
@[simp]
theorem isQuiet_resultRow : resultRow.IsQuiet := trivial

/-- A table's type name is quiet. -/
@[simp]
theorem isQuiet_tableType : (tableType node).IsQuiet := trivial

/-- A loader's name is quiet. -/
@[simp]
theorem isQuiet_loader : (loader node).IsQuiet := trivial

/-- A group table's type name is quiet. -/
@[simp]
theorem isQuiet_groupsType : (groupsType node).IsQuiet := trivial

/-- The name of a group table's hash function is quiet. -/
@[simp]
theorem isQuiet_groupsHash : (groupsHash node).IsQuiet := trivial

/-- The name of a group table's grow function is quiet. -/
@[simp]
theorem isQuiet_groupsGrow : (groupsGrow node).IsQuiet := trivial

/-- The name of a group table's find function is quiet. -/
@[simp]
theorem isQuiet_groupsFind : (groupsFind node).IsQuiet := trivial

/-- The name of the row printer is quiet. -/
@[simp]
theorem isQuiet_printRow : printRow.IsQuiet := trivial

/-- A helper's name is quiet unless it is the division's. -/
@[simp]
theorem isQuiet_helper {function : Helper} : (helper function).IsQuiet ↔ function ≠ .divide := .rfl

end

variable {name : Name} (quiet : name.IsQuiet)
include quiet

/-- A quiet name is an identifier. -/
theorem IsQuiet.isIdentifier : IsIdentifier name.text := by
  cases name with
  | ofNode owner node part =>
    cases part with
    | none => exact isIdentifier_ofNode_none owner node
    | some part => exact isIdentifier_ofNode owner node quiet
  | _ => exact isIdentifier_of_ne rfl

/-- A quiet name is not the division word. -/
theorem IsQuiet.toList_text_ne : name.text.toList ≠ divideWord := by
  cases name with
  | ofNode owner node part =>
    -- names of nodes are spelled like variables, which that of the function is not
    intro same
    have spelled := isVariable_text_ofNode owner node part
    rw [same] at spelled
    exact absurd spelled (by decide)
  | helper function =>
    intro same
    rw [← toList_text_divide, String.toList_inj] at same
    cases function with
    | divide => exact quiet rfl
    | _ => exact absurd same (by decide)
  | resultRow | printRow => exact fun same => absurd same (by decide)
  | tableType | loader | groupsType | groupsHash | groupsGrow | groupsFind =>
    -- no other name of a type or a function has a `v`
    have missing : ∀ chars, 'v' ∉ chars → chars ≠ divideWord := by
      rintro _ missing rfl
      exact missing (by decide)
    refine missing _ ?_
    simp [text]

end Name

namespace Piece

/-- A piece that can be read on its own and does not mention checked division. -/
def IsQuiet : Piece → Prop
  | .text fixed => isQuietText fixed.toList = true
  | .name identifier => identifier.IsQuiet
  | .literal _ => True

/-- A name as a piece is quiet exactly if the name is. -/
@[simp]
theorem isQuiet_name {identifier : Name} : (name identifier).IsQuiet ↔ identifier.IsQuiet := .rfl

/-- A string literal is quiet, whatever it contains. -/
@[simp]
theorem isQuiet_literal {contents : String} : (literal contents).IsQuiet := trivial

/-- A fixed text that passes the test is a quiet piece. -/
@[simp]
theorem isQuiet_text {fixed : String} {chars : List Char} (spelled : String.ofList chars = fixed)
    (quiet : isQuietText chars = true) : (text fixed).IsQuiet := by
  rwa [IsQuiet, toList_of_spelled spelled]

section

variable {text : String} (nonempty : text.toList ≠ []) (noQuote : '"' ∉ text.toList)
  (noBackslash : '\\' ∉ text.toList)
include nonempty noQuote noBackslash

-- texts with numbers in them are not gone through as they are

/-- A text without underscores is quiet: the division word has one. -/
theorem isQuiet_of_notMem_underscore (missing : '_' ∉ text.toList) : (Piece.text text).IsQuiet :=
  isQuietText_of_notMem nonempty noQuote noBackslash (by decide) missing

/-- A text without the letter k is quiet: the division word has one. -/
theorem isQuiet_of_notMem_k (missing : 'k' ∉ text.toList) : (Piece.text text).IsQuiet :=
  isQuietText_of_notMem nonempty noQuote noBackslash (by decide) missing

end

variable {piece : Piece} (quiet : piece.IsQuiet)
include quiet

/-- A quiet piece lexes as a whole. -/
theorem IsQuiet.isWhole : piece.IsWhole := by
  cases piece with
  | text fixed => exact isWhole_text String.ofList_toList (isQuietText_iff.1 quiet).1
  | name identifier => exact isWhole_name (Name.IsQuiet.isIdentifier quiet)
  | literal contents => exact isWhole_literal contents

/-- The division word is no lexeme of a quiet piece. -/
theorem IsQuiet.notMem_lexemes : .word divideWord ∉ piece.lexemes := by
  cases piece with
  | text fixed => exact (isQuietText_iff.1 quiet).2
  | name identifier =>
    rw [lexemes_name (Name.IsQuiet.isIdentifier quiet), List.mem_singleton]
    exact fun same => Name.IsQuiet.toList_text_ne quiet (Lexeme.word.inj same).symm
  | literal contents =>
    simp [lexemes_literal]

end Piece

namespace Code

variable {a b : Code}

/-- Code that does not mention checked division. -/
abbrev IsQuiet (code : Code) : Prop := code.IsMadeOf Piece.IsQuiet

/-- Quiet code lexes as a whole, piece by piece. -/
theorem IsQuiet.isWhole (quiet : a.IsQuiet) : a.IsWhole := quiet.imp fun _ => Piece.IsQuiet.isWhole

/-- The division word is no lexeme of quiet code. -/
theorem IsQuiet.notMem_lexemesByPiece (quiet : a.IsQuiet) :
    .word divideWord ∉ a.lexemesByPiece := by
  intro member
  obtain ⟨piece, found, inside⟩ := List.mem_flatMap.1 member
  exact (quiet.pieces piece found).notMem_lexemes inside

/-- Code joined by commas is quiet exactly if every part is. -/
@[simp]
theorem isQuiet_separated_comma {parts : List Code} :
    (separated ", " parts).IsQuiet ↔ AllOf IsQuiet parts :=
  isMadeOf_separated (rfl : String.ofList _ = ", ") rfl rfl
    (Piece.isQuiet_text rfl (by decide))

/-- A call is quiet exactly if the function's name and all arguments are. -/
@[simp]
theorem isQuiet_call {function : Name} {arguments : List Code} :
    (call function arguments).IsQuiet ↔ function.IsQuiet ∧ AllOf IsQuiet arguments := by
  rw [call]
  simp (disch := first | decide | exact rfl)

/-- A helper's call lexes as a whole exactly if its arguments do. -/
@[simp]
theorem isWhole_help {helper : Helper} {arguments : List Code} :
    (help helper arguments).IsWhole ↔ AllOf IsWhole arguments := by
  have name : (Piece.name (.helper helper)).IsWhole :=
    Piece.isWhole_name (Name.isIdentifier_of_ne rfl)
  have comma : (separated ", " arguments).IsWhole ↔ AllOf IsWhole arguments :=
    isMadeOf_separated (rfl : String.ofList _ = ", ") rfl rfl (Piece.isWhole_text rfl rfl)
  rw [help, call]
  simp (disch := first | decide | exact rfl) [name, comma]

/-- A helper's call is quiet exactly if it is not a division and its arguments are quiet. -/
@[simp]
theorem isQuiet_help {helper : Helper} {arguments : List Code} :
    (help helper arguments).IsQuiet ↔ helper ≠ .divide ∧ AllOf IsQuiet arguments := by
  simp [help]

/-- A member access is quiet exactly if the record and the member's name are. -/
@[simp]
theorem isQuiet_member {name : String} :
    (member a name).IsQuiet ↔ a.IsQuiet ∧ (name : Code).IsQuiet := by
  rw [member]
  simp (disch := first | decide | exact rfl)

/-- An element access is quiet exactly if the array and the index are. -/
@[simp]
theorem isQuiet_element : (element a b).IsQuiet ↔ a.IsQuiet ∧ b.IsQuiet := by
  rw [element]
  simp (disch := first | decide | exact rfl)

end Code

/-! ## Statements -/

/-- The lines that open a block do not mention checked division. -/
def Head.IsQuiet (head : Head) : Prop := AllOf Code.IsQuiet head.codes

namespace Head

variable {index : Name} {code : Code}

/-- A bare block's head is quiet. -/
@[simp]
theorem isQuiet_bare : bare.IsQuiet := by
  simp (disch := first | decide | exact rfl) [IsQuiet, codes]

/-- A control head is quiet exactly if its code is. -/
@[simp]
theorem isQuiet_control : (control code).IsQuiet ↔ code.IsQuiet := by
  simp (disch := first | decide | exact rfl) [IsQuiet, codes]

/-- A loop's head is quiet exactly if its directive, index, start, test and step are. -/
@[simp]
theorem isQuiet_loop {directive : Option Code} {start test step : Code} :
    (loop directive index start test step).IsQuiet ↔
      (∀ code ∈ directive, code.IsQuiet) ∧ index.IsQuiet ∧ start.IsQuiet ∧ test.IsQuiet ∧
        step.IsQuiet := by
  have given : AllOf Code.IsQuiet directive.toList ↔ ∀ code ∈ directive, code.IsQuiet := by
    cases directive <;> simp
  simp (disch := first | decide | exact rfl) [IsQuiet, codes, given, and_assoc]

/-- A counting loop's head is quiet exactly if its index and its bound are. -/
@[simp]
theorem isQuiet_upTo {length : Code} :
    (upTo index length).IsQuiet ↔ index.IsQuiet ∧ length.IsQuiet := by
  simp (disch := first | decide | exact rfl) [upTo]
  tauto

/-- A batch loop's head is quiet exactly if its index and its total are. -/
@[simp]
theorem isQuiet_batches {total : Code} :
    (batches index total).IsQuiet ↔ index.IsQuiet ∧ total.IsQuiet := by
  simp (disch := first | decide | exact rfl) [batches]
  tauto

/-- A quiet head stays quiet under a quiet directive. -/
theorem isQuiet_withDirective {head : Head} (quiet : head.IsQuiet) {directive : Option Code}
    (directiveQuiet : ∀ code ∈ directive, code.IsQuiet) :
    (head.withDirective directive).IsQuiet := by
  cases head with
  | bare | control => exact quiet
  | loop => exact isQuiet_loop.2 ⟨directiveQuiet, (isQuiet_loop.1 quiet).2⟩

end Head

namespace Statement

/-- The lines of a statement do not mention checked division. -/
def IsQuiet (statement : Statement) : Prop := AllOf Code.IsQuiet statement.codes

/-- The codes of a list of statements are quiet exactly if the statements are. -/
@[simp]
theorem allOf_codesOfAll {statements : List Statement} :
    AllOf Code.IsQuiet (codesOfAll statements) ↔ AllOf IsQuiet statements := by
  rw [codesOfAll_eq_flatMap, AllOf.flatMap_iff]
  rfl

/-- Closing a block in front of the first code makes no difference to whether all are quiet. -/
@[simp]
theorem allOf_closeFirst {codes : List Code} :
    AllOf Code.IsQuiet (closeFirst codes) ↔ AllOf Code.IsQuiet codes := by
  cases codes <;> simp (disch := first | decide | exact rfl) [closeFirst]

/-- A blank line is quiet. -/
@[simp]
theorem isQuiet_blank : blank.IsQuiet := by
  simp [IsQuiet, codes]

/-- A line is quiet exactly if its code is. -/
@[simp]
theorem isQuiet_line {code : Code} : (line code).IsQuiet ↔ code.IsQuiet := by
  simp [IsQuiet, codes]

/-- A one-line control statement is quiet exactly if its head and its action are. -/
@[simp]
theorem isQuiet_control {head action : Code} :
    (control head action).IsQuiet ↔ head.IsQuiet ∧ action.IsQuiet := by
  simp [IsQuiet, codes]

/-- A continued statement is quiet exactly if its first line and all others are. -/
@[simp]
theorem isQuiet_continued {first : Code} {rest : List Code} :
    (continued first rest).IsQuiet ↔ first.IsQuiet ∧ AllOf Code.IsQuiet rest := by
  simp [IsQuiet, codes]

/-- A declaration is quiet exactly if its code is, read in one piece. -/
@[simp]
theorem isQuiet_declare {specifier : Code} {name : Name} {rest : Code} :
    (declare specifier name rest).IsQuiet ↔ (specifier ++ name ++ rest).IsQuiet := by
  simp [IsQuiet, codes]

/-- A block is quiet exactly if its head and its body are. -/
@[simp]
theorem isQuiet_block {head : Head} {body : List Statement} :
    (block head body).IsQuiet ↔ head.IsQuiet ∧ AllOf IsQuiet body := by
  simp (disch := first | decide | exact rfl) [IsQuiet, codes, Head.IsQuiet]

/-- A branch is quiet exactly if its condition, its body and its alternative are. -/
@[simp]
theorem isQuiet_branch {condition : Code} {body : List Statement} {otherwise : Statement} :
    (branch condition body otherwise).IsQuiet ↔
      condition.IsQuiet ∧ AllOf IsQuiet body ∧ otherwise.IsQuiet := by
  simp (disch := first | decide | exact rfl) [IsQuiet, codes]

end Statement

/-- The lines of a step do not mention checked division. -/
def Step.IsQuiet (step : Step) : Prop := AllOf Code.IsQuiet step.codes

namespace Step

/-- A statement as a step is quiet exactly if the statement is. -/
@[simp]
theorem isQuiet_run {statement : Statement} : (run statement).IsQuiet ↔ statement.IsQuiet := .rfl

/-- Entering a block is quiet exactly if its head is. -/
@[simp]
theorem isQuiet_enter {head : Head} : (enter head).IsQuiet ↔ head.IsQuiet := by
  simp (disch := first | decide | exact rfl) [IsQuiet, codes, Head.IsQuiet]

end Step

/-- The lines around an open place do not mention checked division. -/
theorem Context.allOf_codes {context : Context} :
    AllOf Code.IsQuiet context.codes ↔ AllOf Step.IsQuiet context := by
  rw [codes, AllOf.flatMap_iff]
  rfl

/-- Quiet statements in a quiet context make quiet statements. -/
theorem Context.isQuiet_fill {context : Context} {statements : List Statement}
    (around : AllOf Step.IsQuiet context) (inside : AllOf Statement.IsQuiet statements) :
    AllOf Statement.IsQuiet (context.fill statements) := by
  refine Statement.allOf_codesOfAll.1 fun code member => ?_
  -- each line of the filled context is one of the context or of the statements
  have filled := (codesOfAll_fill_perm context statements).subset member
  exact AllOf.append_iff.2 ⟨allOf_codes.2 around, Statement.allOf_codesOfAll.2 inside⟩ code filled

/-- The steps that run statements are quiet exactly if the statements are. -/
@[simp]
theorem Context.allOf_runAll {statements : List Statement} :
    AllOf Step.IsQuiet (runAll statements) ↔ AllOf Statement.IsQuiet statements := by
  simp [runAll, AllOf]

/-! ## Definitions -/

/-- The line of a member does not mention checked division. -/
def Member.IsQuiet (member : Member) : Prop := member.line.code.IsQuiet

namespace Member

variable {type name : String}

/-- A size member is quiet exactly if its name is. -/
@[simp]
theorem isQuiet_size : (size name).IsQuiet ↔ (Piece.text name).IsQuiet := by
  simp (disch := first | decide | exact rfl) [IsQuiet, line, size]

/-- A buffer member is quiet exactly if its type and its name are. -/
@[simp]
theorem isQuiet_buffer :
    (buffer type name).IsQuiet ↔ (Piece.text type).IsQuiet ∧ (Piece.text name).IsQuiet := by
  simp (disch := first | decide | exact rfl) [IsQuiet, line, buffer]

end Member

/-- The lines of a definition do not mention checked division. -/
def Definition.IsQuiet (definition : Definition) : Prop := AllOf Code.IsQuiet definition.codes

namespace Definition

variable {name : Name}

/-- A record is quiet exactly if its name and its members are. -/
@[simp]
theorem isQuiet_record {members : List Member} :
    (record name members).IsQuiet ↔ name.IsQuiet ∧ AllOf Member.IsQuiet members := by
  have each : AllOf Code.IsQuiet (members.map fun member => member.line.code) ↔
      AllOf Member.IsQuiet members := AllOf.map_iff
  simp (disch := first | decide | exact rfl) [IsQuiet, each, -AllOf.map_iff, and_comm]

/-- A global declaration is quiet exactly if its code is. -/
@[simp]
theorem isQuiet_global {code : Code} : (global code).IsQuiet ↔ code.IsQuiet := by
  simp [IsQuiet]

/-- A function is quiet exactly if its comment, result, name, parameters and body are. -/
@[simp]
theorem isQuiet_function {comment : List String} {result : String} {parameters : List Code}
    {body : List Statement} :
    (function comment result name parameters body).IsQuiet ↔
      (∀ text ∈ comment, (Piece.text text).IsQuiet) ∧ (Piece.text result).IsQuiet ∧
        name.IsQuiet ∧ AllOf Code.IsQuiet parameters ∧ AllOf Statement.IsQuiet body := by
  have block : AllOf Code.IsQuiet (Statement.block .bare body).codes ↔
      AllOf Statement.IsQuiet body := Statement.isQuiet_block.trans (by simp)
  simp (disch := first | decide | exact rfl) [IsQuiet, block, and_assoc]

end Definition

end PlanCompiler
