import Mathlib.Data.Bool.AllAny
import PlanCompiler.Proofs.Code.Quiet
import PlanCompiler.Proofs.Code.Usage

/-!
# Code within a vocabulary

What a part of a program may mention depends on the request and on where the part stands: words that
only some programs have, functions that are defined in front of it, and directives. This is a
`Vocabulary`, and code keeps within it if its fixed texts and its names do. A name in front of a
parenthesis is then a function that is known. The lemmas of this module take code apart until fixed
texts are left.

## Main definitions

* `Vocabulary`: words, functions and directives that may occur;
* `Code.IsWithin`: code that keeps within a vocabulary.

## Main results

* `Code.IsWithin.reads`: what is known of the characters of such code.
-/

namespace PlanCompiler

open Lexeme (scan after startsWord endsWord applied)
open Text (pragmaWord)

/-- What a part of a program may mention. -/
structure Vocabulary where
  /-- Words that only some programs have, but for names of functions. -/
  words : ConditionalWord → Prop
  /-- Functions that are defined. -/
  functions : List Name
  /-- Whether there may be directives. -/
  directives : Prop

namespace Vocabulary

/-- A word may occur, as such or as the name of a function. -/
def Allows (v : Vocabulary) (word : ConditionalWord) : Prop :=
  v.words word ∨ ∃ function ∈ v.functions, function.text.toList = word.chars

/-- A function may be called. -/
def Knows (v : Vocabulary) (function : List Char) : Prop :=
  ∃ name ∈ v.functions, name.text.toList = function

/-- The vocabulary behind the definitions of some functions. -/
def define (v : Vocabulary) (functions : List Name) : Vocabulary :=
  { v with functions := v.functions ++ functions }

/-- The helper functions that every program has are defined. -/
def HasHelpers (v : Vocabulary) : Prop := ∀ helper ≠ .divide, .helper helper ∈ v.functions

variable {v : Vocabulary}

/-- Defining no functions leaves the vocabulary as it is. -/
@[simp]
theorem define_nil : v.define [] = v := by
  rw [define, List.append_nil]

/-- Functions defined one after the other are defined together. -/
theorem define_define (functions functions' : List Name) :
    (v.define functions).define functions' = v.define (functions ++ functions') := by
  rw [define, define, define, List.append_assoc]

/-- A word that is allowed stays so behind further definitions. -/
theorem Allows.define {word : ConditionalWord} (allowed : v.Allows word) (functions : List Name) :
    (v.define functions).Allows word :=
  allowed.imp_right fun ⟨function, known, same⟩ =>
    ⟨function, List.mem_append_left _ known, same⟩

/-- The helpers stay defined behind further definitions. -/
theorem HasHelpers.define (helpers : v.HasHelpers) (functions : List Name) :
    (v.define functions).HasHelpers :=
  fun helper other => List.mem_append_left _ (helpers helper other)

end Vocabulary

/-- What is known of the characters of code within a vocabulary. -/
structure Lexeme.ReadsWithin (v : Vocabulary) (chars : List Char) : Prop where
  sameLine : '\n' ∉ chars
  outside : after .outside chars = .outside
  calls : ∀ function ∈ applied (scan .outside chars), v.Knows function
  words : ∀ word : ConditionalWord, .word word.chars ∈ scan .outside chars → v.Allows word

/-! ## Pieces -/

/-- The characters of a text that can be read on its own, calls no function and has no conditional
words but some. -/
def isPlainText (except : List ConditionalWord) (chars : List Char) : Bool :=
  Piece.isWholeText chars && !chars.contains '\n' && (applied (scan .outside chars)).isEmpty &&
    !(scan .outside chars).contains (.word pragmaWord) &&
      ConditionalWord.all.all fun word =>
        except.contains word || !(scan .outside chars).contains (.word word.chars)

/-- The test of a fixed text, read as what it says of its lexemes. -/
theorem isPlainText_iff {except : List ConditionalWord} {chars : List Char} :
    isPlainText except chars = true ↔
      Piece.isWholeText chars = true ∧ '\n' ∉ chars ∧ applied (scan .outside chars) = [] ∧
        .word pragmaWord ∉ scan .outside chars ∧
          ∀ word : ConditionalWord, .word word.chars ∈ scan .outside chars → word ∈ except := by
  have each : (∀ word ∈ ConditionalWord.all, word ∈ except ∨
      .word word.chars ∉ scan .outside chars) ↔
        ∀ word : ConditionalWord, .word word.chars ∈ scan .outside chars → word ∈ except :=
    ⟨fun all word member => (all word word.mem_all).resolve_right (not_not_intro member),
      fun all word _ => or_iff_not_imp_right.2 fun member => all word (not_not.1 member)⟩
  simp [isPlainText, each, and_assoc]

/-- Without some of the characters of own words there are none. -/
theorem Lexeme.ownWord?_eq_none_of_notMem {lexeme : Lexeme} {chars : List Char}
    (member : lexeme ∈ scan .outside chars) (noOwn : '_' ∉ chars ∨ 'k' ∉ chars) :
    lexeme.ownWord? = none := by
  cases lexeme with
  | literal | sign => rfl
  | word word =>
    refine if_neg fun isOwn => ?_
    have start := List.isPrefixOf_iff_prefix.1 isOwn
    have inText : ∀ c ∈ ['k', 'i', 'l', 'n', '_'], c ∈ chars := fun c inStart =>
      mem_of_word_mem_scan member (start.subset inStart)
    exact noOwn.elim (fun missing => missing (inText _ (by decide)))
      fun missing => missing (inText _ (by decide))

/-- Every conditional word has one of these characters, and so has the word of directives. -/
theorem ConditionalWord.exists_mem_chars (word : ConditionalWord) :
    '_' ∈ word.chars ∧ ('k' ∈ word.chars ∨ 'V' ∈ word.chars) ∧
      ∃ c ∈ ['f', 'd', 't', 'K'], c ∈ word.chars := by
  refine ⟨?_, ?_, List.any_iff_exists_prop.1 ?_⟩ <;> cases word <;> decide

section

variable {chars : List Char} (nonempty : chars ≠ []) (noQuote : '"' ∉ chars)
  (noBackslash : '\\' ∉ chars) (sameLine : '\n' ∉ chars) (noDirective : 'm' ∉ chars)
include nonempty noQuote noBackslash sameLine noDirective

/-- Without quotes and backslashes, and without some of the characters of own words and of
directives, it is left to see which conditional words there are. -/
theorem isPlainText_of_notMem_or {except : List ConditionalWord}
    (noOwn : '_' ∉ chars ∨ 'k' ∉ chars)
    (words : ∀ word : ConditionalWord, .word word.chars ∈ scan .outside chars → word ∈ except) :
    isPlainText except chars = true := by
  have plain : ∀ d ∈ chars, Spot.IsPlainChar d := by
    intro d member
    exact ⟨ne_of_mem_of_not_mem member noQuote, ne_of_mem_of_not_mem member noBackslash⟩
  refine isPlainText_iff.2 ⟨Piece.isWholeText_iff.2 ⟨nonempty, Lexeme.after_of_notMem noQuote,
    Spot.after_of_isPlainChar plain rfl⟩, sameLine, List.eq_nil_iff_forall_not_mem.2 ?_, ?_, words⟩
  · intro function member
    obtain ⟨lexeme, found, own⟩ := Lexeme.mem_of_mem_applied member
    rw [Lexeme.ownWord?_eq_none_of_notMem found noOwn] at own
    cases own
  · exact fun member => noDirective (Lexeme.mem_of_word_mem_scan member (by decide))

/-- Without some of the characters of conditional words there are none of these either. -/
theorem isPlainText_of_notMem (noOwn : '_' ∉ chars ∨ 'k' ∉ chars ∧ 'V' ∉ chars) :
    isPlainText [] chars = true := by
  refine isPlainText_of_notMem_or nonempty noQuote noBackslash sameLine noDirective
    (noOwn.imp_right And.left) fun word member => ?_
  obtain ⟨underscore, letter, -⟩ := word.exists_mem_chars
  rcases noOwn with missing | ⟨noSmall, noCapital⟩
  · exact absurd (Lexeme.mem_of_word_mem_scan member underscore) missing
  · rcases letter with small | capital
    · exact absurd (Lexeme.mem_of_word_mem_scan member small) noSmall
    · exact absurd (Lexeme.mem_of_word_mem_scan member capital) noCapital

/-- All conditional words but the size of a batch have a small letter. -/
theorem isPlainText_vectorSize_of_notMem (noSmall : 'k' ∉ chars) :
    isPlainText [.vectorSize] chars = true := by
  refine isPlainText_of_notMem_or nonempty noQuote noBackslash sameLine noDirective (.inr noSmall)
    fun word member => ?_
  have letter : word = .vectorSize ∨ 'k' ∈ word.chars := by
    cases word <;> decide
  refine List.mem_singleton.2 (letter.resolve_right fun small => noSmall ?_)
  exact Lexeme.mem_of_word_mem_scan member small

end

/-- The name is that of a function. -/
abbrev Name.isFunction : Name → Bool
  | .loader _ | .groupsHash _ | .groupsGrow _ | .groupsFind _ | .printRow | .helper _ => true
  | .ofNode .. | .resultRow | .tableType _ | .groupsType _ => false

variable {v : Vocabulary}

namespace Name

/-- No name is the word of directives. -/
theorem toList_text_ne_pragmaWord (name : Name) : name.text.toList ≠ pragmaWord := by
  intro same
  cases other : name.node? with
  | none =>
    obtain ⟨rest, spelled⟩ := exists_toList_text other
    exact nomatch spelled.symm.trans same
  | some node =>
    have spelled := isVariable_text other
    rw [same] at spelled
    exact absurd spelled (by decide)

/-- The names of functions are identifiers. -/
theorem isIdentifier_of_isFunction {name : Name} (function : name.isFunction = true) :
    IsIdentifier name.text := by
  cases name with
  | ofNode | resultRow | tableType | groupsType => cases function
  | loader | groupsHash | groupsGrow | groupsFind | printRow | helper =>
    exact isIdentifier_of_ne rfl

/-- Every name starts with a word. -/
theorem startsWord_text (name : Name) : startsWord name.text.toList = true := by
  cases other : name.node? with
  | none =>
    obtain ⟨rest, spelled⟩ := exists_toList_text other
    rw [spelled]
    rfl
  | some node =>
    obtain ⟨owner, part, rfl⟩ : ∃ owner part, name = .ofNode owner node part := by
      cases name <;> cases other
      exact ⟨_, _, rfl⟩
    rw [toList_text_ofNode]
    cases owner <;> rfl

/-- Functions have to be known, and other names have to be words. -/
def IsWithin (v : Vocabulary) : Name → Prop
  | .ofNode _ _ (some part) => IsIdentifier part
  | .ofNode _ _ none | .resultRow | .tableType _ | .groupsType _ => True
  | function => function ∈ v.functions

section

variable {owner : Owner} {node : Nat} {part : String}

/-- A variable of a node is within a vocabulary exactly if its part is an identifier. -/
@[simp]
theorem isWithin_ofNode_some : (ofNode owner node (some part)).IsWithin v ↔ IsIdentifier part :=
  .rfl

/-- The variable that a node is named by keeps within any vocabulary. -/
@[simp]
theorem isWithin_ofNode_none : (ofNode owner node none).IsWithin v := trivial

/-- The name of the result row keeps within any vocabulary. -/
@[simp]
theorem isWithin_resultRow : resultRow.IsWithin v := trivial

/-- The name of a table's type keeps within any vocabulary. -/
@[simp]
theorem isWithin_tableType : (tableType node).IsWithin v := trivial

/-- The name of a group table's type keeps within any vocabulary. -/
@[simp]
theorem isWithin_groupsType : (groupsType node).IsWithin v := trivial

/-- The name of a function is within a vocabulary exactly if it is defined there. -/
theorem isWithin_of_isFunction {name : Name} (function : name.isFunction = true) :
    name.IsWithin v ↔ name ∈ v.functions := by
  cases name with
  | ofNode | resultRow | tableType | groupsType => cases function
  | loader | groupsHash | groupsGrow | groupsFind | printRow | helper => exact .rfl

end

variable {name : Name} (within : name.IsWithin v)
include within

/-- A name within a vocabulary is an identifier. -/
theorem IsWithin.isIdentifier : IsIdentifier name.text := by
  cases name with
  | ofNode owner node part =>
    cases part with
    | none => exact isIdentifier_ofNode_none owner node
    | some part => exact isIdentifier_ofNode owner node within
  | _ => exact isIdentifier_of_ne rfl

/-- A name with the spelling of a conditional word is that of a function. -/
theorem IsWithin.allows {word : ConditionalWord} (same : name.text.toList = word.chars) :
    v.Allows word := by
  by_cases function : name.isFunction = true
  · exact .inr ⟨name, (isWithin_of_isFunction function).1 within, same⟩
  obtain ⟨-, -, c, needed, inWord⟩ := word.exists_mem_chars
  rw [← same] at inWord
  cases name with
  | ofNode owner node part =>
    -- names of nodes are spelled like variables
    have spelled := isVariable_text_ofNode owner node part
    rw [same] at spelled
    cases word <;> exact absurd spelled (by decide)
  | resultRow =>
    have noWord : ∀ word : ConditionalWord, ['k', 'i', 'l', 'n', '_', 'i'] ≠ word.chars := by
      intro word
      cases word <;> decide
    exact absurd ((toList_of_spelled rfl).symm.trans same) (noWord word)
  | tableType | groupsType =>
    -- types lack all of these characters
    rw [text, String.toList_append, Numeral.toList_toString, List.mem_append] at inWord
    simp only [List.mem_cons, List.not_mem_nil, or_false] at needed
    rcases inWord with fixed | digit
    · rw [toList_of_spelled rfl] at fixed
      obtain rfl | rfl | rfl | rfl := needed <;> exact absurd fixed (by decide)
    · have isDigit := Numeral.isDigit_of_mem_toDigits digit
      obtain rfl | rfl | rfl | rfl := needed <;> exact absurd isDigit (by decide)
  | loader | groupsHash | groupsGrow | groupsFind | printRow | helper => exact absurd rfl function

end Name

namespace Piece

/-- A text calls no function and has no conditional words but those of the vocabulary. -/
def IsWithin (v : Vocabulary) : Piece → Prop
  | .text fixed => ∃ except, isPlainText except fixed.toList = true ∧ ∀ word ∈ except, v.words word
  | .name identifier => identifier.IsWithin v
  | .literal _ => True

/-- A name as a piece is within a vocabulary exactly if the name is. -/
@[simp]
theorem isWithin_name {identifier : Name} : (name identifier).IsWithin v ↔ identifier.IsWithin v :=
  .rfl

/-- A string literal keeps within any vocabulary, whatever it contains. -/
@[simp]
theorem isWithin_literal {contents : String} : (literal contents).IsWithin v := trivial

section

variable {fixed : String} {chars : List Char} (spelled : String.ofList chars = fixed)
include spelled

/-- A fixed text that passes the test keeps within any vocabulary. -/
@[simp]
theorem isWithin_text (plain : isPlainText [] chars = true) : (text fixed).IsWithin v :=
  ⟨[], by rwa [toList_of_spelled spelled], List.forall_mem_nil _⟩

/-- A text with a conditional word. -/
theorem isWithin_text_of_words {word : ConditionalWord} (has : v.words word)
    (plain : isPlainText [word] chars = true) : (text fixed).IsWithin v :=
  ⟨[word], by rwa [toList_of_spelled spelled], List.forall_mem_singleton.2 has⟩

/-- A text with two conditional words. -/
theorem isWithin_text_of_two_words {word word' : ConditionalWord} (has : v.words word)
    (has' : v.words word') (plain : isPlainText [word, word'] chars = true) :
    (text fixed).IsWithin v :=
  ⟨[word, word'], by rwa [toList_of_spelled spelled],
    List.forall_mem_cons.2 ⟨has, List.forall_mem_singleton.2 has'⟩⟩

end

section

variable {text : String} (nonempty : text.toList ≠ []) (noQuote : '"' ∉ text.toList)
  (noBackslash : '\\' ∉ text.toList) (sameLine : '\n' ∉ text.toList)
  (noDirective : 'm' ∉ text.toList)
include nonempty noQuote noBackslash sameLine noDirective

-- texts with numbers in them are not gone through as they are

/-- A text without underscores keeps within any vocabulary: every conditional word has one. -/
theorem isWithin_of_notMem_underscore (missing : '_' ∉ text.toList) :
    (Piece.text text).IsWithin v :=
  ⟨[], isPlainText_of_notMem nonempty noQuote noBackslash sameLine noDirective (.inl missing),
    List.forall_mem_nil _⟩

/-- A text with neither a small k nor a capital V keeps within any vocabulary: every conditional
word has one of them. -/
theorem isWithin_of_notMem_k (noSmall : 'k' ∉ text.toList) (noCapital : 'V' ∉ text.toList) :
    (Piece.text text).IsWithin v :=
  ⟨[], isPlainText_of_notMem nonempty noQuote noBackslash sameLine noDirective
    (.inr ⟨noSmall, noCapital⟩), List.forall_mem_nil _⟩

end

variable {piece : Piece} (within : piece.IsWithin v)
include within

/-- A piece within a vocabulary lexes as a whole. -/
theorem IsWithin.isWhole : piece.IsWhole := by
  cases piece with
  | text fixed =>
    obtain ⟨except, plain, -⟩ := within
    exact isWhole_text String.ofList_toList (isPlainText_iff.1 plain).1
  | name identifier => exact isWhole_name (Name.IsWithin.isIdentifier within)
  | literal contents => exact isWhole_literal contents

/-- A piece within a vocabulary stays in its line. -/
theorem IsWithin.sameLine : '\n' ∉ piece.chars := by
  cases piece with
  | text fixed =>
    obtain ⟨except, plain, -⟩ := within
    exact (isPlainText_iff.1 plain).2.1
  | name identifier =>
    intro member
    exact absurd (Name.IsWithin.isIdentifier within _ member) (by decide)
  | literal contents => exact Lexeme.newline_notMem_stringLiteral contents

/-- A conditional word in a piece within a vocabulary is allowed there. -/
theorem IsWithin.allows {word : ConditionalWord} (member : .word word.chars ∈ piece.lexemes) :
    v.Allows word := by
  cases piece with
  | text fixed =>
    obtain ⟨except, plain, has⟩ := within
    exact .inl (has word ((isPlainText_iff.1 plain).2.2.2.2 word member))
  | name identifier =>
    rw [lexemes_name (Name.IsWithin.isIdentifier within), List.mem_singleton] at member
    exact Name.IsWithin.allows within (Lexeme.word.inj member).symm
  | literal contents =>
    rw [lexemes_literal, List.mem_singleton] at member
    cases member

/-- A piece within a vocabulary has no directive. -/
theorem IsWithin.pragmaWord_notMem : .word pragmaWord ∉ piece.lexemes := by
  cases piece with
  | text fixed =>
    obtain ⟨except, plain, -⟩ := within
    exact (isPlainText_iff.1 plain).2.2.2.1
  | name identifier =>
    rw [lexemes_name (Name.IsWithin.isIdentifier within), List.mem_singleton]
    exact fun same => identifier.toList_text_ne_pragmaWord (Lexeme.word.inj same).symm
  | literal contents =>
    rw [lexemes_literal, List.mem_singleton]
    exact nofun

/-- A piece within a vocabulary applies no function by itself. -/
theorem IsWithin.applied_lexemes : applied piece.lexemes = [] := by
  cases piece with
  | text fixed =>
    obtain ⟨except, plain, -⟩ := within
    exact (isPlainText_iff.1 plain).2.2.1
  | name identifier =>
    rw [lexemes_name (Name.IsWithin.isIdentifier within)]
    rfl
  | literal contents =>
    rw [lexemes_literal]
    rfl

end Piece

/-! ## Code -/

namespace Code

/-- The functions that code calls, with its pieces read on their own. -/
def calls (code : Code) : List (List Char) := applied code.lexemesByPiece

/-- Code that keeps within a vocabulary. -/
structure IsWithin (v : Vocabulary) (code : Code) : Prop where
  made : code.IsMadeOf (Piece.IsWithin v)
  calls : ∀ function ∈ code.calls, v.Knows function

variable {a b : Code}

section

variable (within : a.IsWithin v)
include within

/-- Code within a vocabulary lexes as a whole, piece by piece. -/
theorem IsWithin.isWhole : a.IsWhole := within.made.imp fun _ => Piece.IsWithin.isWhole

/-- Code within a vocabulary has no directive. -/
theorem IsWithin.pragmaWord_notMem : .word pragmaWord ∉ scan .outside a.chars := by
  rw [scan_chars within.isWhole]
  intro member
  obtain ⟨piece, found, inside⟩ := List.mem_flatMap.1 member
  exact (within.made.pieces piece found).pragmaWord_notMem inside

/-- Where no function is known, none is called. -/
theorem IsWithin.calls_eq_nil (none : v.functions = []) : a.calls = [] := by
  refine List.eq_nil_iff_forall_not_mem.2 fun function member => ?_
  obtain ⟨name, known, -⟩ := within.calls function member
  rw [none] at known
  cases known

/-- The characters of code within a vocabulary. -/
theorem IsWithin.reads : Lexeme.ReadsWithin v a.chars where
  sameLine := by
    rw [chars_eq_flatMap]
    intro member
    obtain ⟨piece, found, inside⟩ := List.mem_flatMap.1 member
    exact (within.made.pieces piece found).sameLine inside
  outside := after_chars within.isWhole
  calls := by
    rw [scan_chars within.isWhole]
    exact within.calls
  words := by
    rw [scan_chars within.isWhole]
    intro word member
    obtain ⟨piece, found, inside⟩ := List.mem_flatMap.1 member
    exact (within.made.pieces piece found).allows inside

end

/-- A text that can stand behind any code: it neither starts with a character of words nor with a
parenthesis. -/
def followsText (chars : List Char) : Bool :=
  !startsWord chars && (scan .outside chars).head? ≠ some (.sign '(')

/-- A text without words at its start and without parentheses can stand behind any code. -/
theorem followsText_of_notMem {chars : List Char} (starts : startsWord chars = false)
    (noParenthesis : '(' ∉ chars) : followsText chars = true := by
  rw [followsText, starts, Bool.not_false, Bool.true_and, decide_eq_true_iff]
  exact fun opens => noParenthesis (Lexeme.mem_of_sign_mem_scan (List.mem_of_mem_head? opens))

/-- A text that can stand in front of any code: it neither ends with a character of words nor is an
own word its last one. -/
def leadsText (chars : List Char) : Bool :=
  !endsWord chars && (scan .outside chars).getLast?.any fun last => last.ownWord?.isNone

/-- Code in a row calls what its parts call, unless a parenthesis follows a word. -/
theorem calls_append
    (free : b.lexemesByPiece.head? = some (.sign '(') →
      ∀ last ∈ a.lexemesByPiece.getLast?, last.ownWord? = none) :
    (a ++ b).calls = a.calls ++ b.calls := by
  rw [calls, lexemesByPiece_append, Lexeme.applied_append free, calls, calls]

/-- Code is taken apart where no word extends over the seam, and no parenthesis comes to stand
behind an own word. -/
theorem isWithin_append_iff
    (apart : ∀ front ∈ a.pieces.getLast?, ∀ back ∈ b.pieces.head?, front.Apart back)
    (free : b.lexemesByPiece.head? = some (.sign '(') →
      ∀ last ∈ a.lexemesByPiece.getLast?, last.ownWord? = none) :
    (a ++ b).IsWithin v ↔ a.IsWithin v ∧ b.IsWithin v := by
  -- no call is made or lost at the seam
  have both := calls_append free
  constructor
  · rintro ⟨made, called⟩
    obtain ⟨first, second⟩ := (isMadeOf_append_iff apart).1 made
    rw [both] at called
    obtain ⟨called, called'⟩ := List.forall_mem_append.1 called
    exact ⟨⟨first, called⟩, ⟨second, called'⟩⟩
  · rintro ⟨first, second⟩
    refine ⟨(isMadeOf_append_iff apart).2 ⟨first.made, second.made⟩, ?_⟩
    rw [both]
    exact List.forall_mem_append.2 ⟨first.calls, second.calls⟩

/-- Empty code keeps within any vocabulary. -/
@[simp]
theorem isWithin_empty : empty.IsWithin v := ⟨isMadeOf_empty, List.forall_mem_nil _⟩

/-- Code of one piece is within a vocabulary exactly if the piece is. -/
theorem isWithin_singleton {piece : Piece} :
    (⟨[piece]⟩ : Code).IsWithin v ↔ piece.IsWithin v := by
  refine ⟨fun within => isMadeOf_singleton.1 within.made, fun within =>
    ⟨isMadeOf_singleton.2 within, ?_⟩⟩
  rw [calls, lexemesByPiece, List.flatMap_singleton, within.applied_lexemes]
  exact List.forall_mem_nil _

/-- A fixed text as code is within a vocabulary exactly if it is so as a piece. -/
@[simp]
theorem isWithin_text {fixed : String} :
    (fixed : Code).IsWithin v ↔ (Piece.text fixed).IsWithin v :=
  isWithin_singleton

/-- A name as code is within a vocabulary exactly if the name is. -/
@[simp]
theorem isWithin_name {name : Name} : (name : Code).IsWithin v ↔ name.IsWithin v :=
  isWithin_singleton

/-- A string literal as code keeps within any vocabulary. -/
@[simp]
theorem isWithin_literal {contents : String} : (literal contents).IsWithin v :=
  isWithin_singleton.2 trivial

section

variable {fixed : String} {chars : List Char} (spelled : String.ofList chars = fixed)
include spelled

/-- A text that can stand behind any code adds only its own words. -/
@[simp]
theorem isWithin_append_text (follows : followsText chars = true) :
    (a ++ (fixed : Code)).IsWithin v ↔ a.IsWithin v ∧ (fixed : Code).IsWithin v := by
  rw [followsText, Bool.and_eq_true, Bool.not_eq_true', decide_eq_true_iff] at follows
  refine isWithin_append_iff (fun front _ back found => ?_) fun opens => ?_
  · obtain rfl : .text fixed = back := Option.some.inj found
    intro _
    rw [Piece.chars_text spelled]
    exact follows.1
  · rw [lexemesByPiece_text spelled] at opens
    exact absurd opens follows.2

/-- What is known of the last lexeme of a text that can stand in front of any code. -/
theorem getLast?_of_leadsText (leads : leadsText chars = true) :
    ∀ last ∈ (a ++ (fixed : Code)).lexemesByPiece.getLast?, last.ownWord? = none := by
  rw [leadsText, Bool.and_eq_true, Option.any_eq_true] at leads
  obtain ⟨-, last, found, other⟩ := leads
  rw [lexemesByPiece_append, lexemesByPiece_text spelled, List.getLast?_append, found]
  rintro _ ⟨⟩
  exact Option.isNone_iff_eq_none.1 other

/-- Behind a text that can stand in front of any code, the rest is judged by itself. -/
@[simp]
theorem isWithin_append_text_append (leads : leadsText chars = true) :
    (a ++ (fixed : Code) ++ b).IsWithin v ↔ (a ++ (fixed : Code)).IsWithin v ∧ b.IsWithin v := by
  have last := getLast?_of_leadsText (a := a) spelled leads
  rw [leadsText, Bool.and_eq_true, Bool.not_eq_true'] at leads
  refine isWithin_append_iff (fun front found back _ endsWord => ?_) fun _ => last
  rw [pieces_append, List.getLast?_append_of_ne_nil _ (List.cons_ne_nil _ _)] at found
  obtain rfl : .text fixed = front := Option.some.inj found
  rw [Piece.chars_text spelled, leads.1] at endsWord
  cases endsWord

/-- In front of any code, such a text adds only its own words. -/
@[simp]
theorem isWithin_text_append (leads : leadsText chars = true) :
    ((fixed : Code) ++ b).IsWithin v ↔ (fixed : Code).IsWithin v ∧ b.IsWithin v := by
  have behind := isWithin_append_text_append (v := v) (a := empty) (b := b) spelled leads
  have same : empty ++ (fixed : Code) = fixed := rfl
  rwa [same] at behind

omit spelled in
/-- A text with a number in it, in front of other code. -/
theorem isWithin_text_append_of_notMem {text : String} (ends : endsWord text.toList = false)
    (noOwn : '_' ∉ text.toList) :
    ((text : Code) ++ b).IsWithin v ↔ (text : Code).IsWithin v ∧ b.IsWithin v := by
  refine isWithin_append_iff (fun front found back _ endsWord => ?_) fun _ last found => ?_
  · obtain rfl : .text text = front := Option.some.inj found
    exact absurd (ends.symm.trans endsWord) nofun
  · rw [lexemesByPiece_text String.ofList_toList] at found
    exact Lexeme.ownWord?_eq_none_of_notMem (List.mem_of_getLast? found) (.inl noOwn)

/-- Parts with a separator between them. -/
theorem isWithin_separated (follows : followsText chars = true) (leads : leadsText chars = true)
    (separator : (Piece.text fixed).IsWithin v) {parts : List Code} :
    (separated fixed parts).IsWithin v ↔ AllOf (IsWithin v) parts := by
  induction parts with
  | nil => simp [separated]
  | cons part rest ih =>
    cases rest with
    | nil => simp [separated]
    | cons next rest =>
      rw [separated, isWithin_append_text_append spelled leads,
        isWithin_append_text spelled follows, ih, isWithin_text, AllOf.cons_iff]
      · simp [separator]
      · exact List.cons_ne_nil next rest

end

/-- Blanks have no lexemes, so that the code around them must not make a call. -/
theorem isWithin_append_blank_append
    (free : b.lexemesByPiece.head? = some (.sign '(') →
      ∀ last ∈ a.lexemesByPiece.getLast?, last.ownWord? = none) :
    (a ++ ((" " : String) : Code) ++ b).IsWithin v ↔ a.IsWithin v ∧ b.IsWithin v := by
  have blank : (a ++ ((" " : String) : Code)).IsWithin v ↔ a.IsWithin v := by
    rw [isWithin_append_text (rfl : String.ofList _ = " ") (by decide)]
    simp (disch := first | decide | exact rfl)
  have silent : (a ++ ((" " : String) : Code)).lexemesByPiece = a.lexemesByPiece := by
    rw [lexemesByPiece_append, lexemesByPiece_text (rfl : String.ofList _ = " ")]
    exact List.append_nil _
  rw [isWithin_append_iff (fun front found back _ endsWord => ?_) (silent.symm ▸ free), blank]
  rw [pieces_append, List.getLast?_append_of_ne_nil _ (List.cons_ne_nil _ _)] at found
  obtain rfl : .text " " = front := Option.some.inj found
  exact absurd endsWord (by decide)

/-- A name behind a blank adds only itself. -/
@[simp]
theorem isWithin_append_blank_append_name {name : Name} :
    (a ++ ((" " : String) : Code) ++ (name : Code)).IsWithin v ↔
      a.IsWithin v ∧ name.IsWithin v := by
  obtain ⟨word, rest, scanned⟩ := Lexeme.exists_scan_of_startsWord name.startsWord_text
  have first : (name : Code).lexemesByPiece = .word word :: rest :=
    (List.flatMap_singleton _ _).trans scanned
  rw [isWithin_append_blank_append fun opens => ?_, isWithin_name]
  rw [first] at opens
  cases opens

/-- A text behind a blank adds only its own words, unless it opens a parenthesis. -/
@[simp]
theorem isWithin_append_blank_append_text {fixed : String} {chars : List Char}
    (spelled : String.ofList chars = fixed)
    (opens : (scan .outside chars).head? ≠ some (.sign '(')) :
    (a ++ ((" " : String) : Code) ++ (fixed : Code)).IsWithin v ↔
      a.IsWithin v ∧ (fixed : Code).IsWithin v :=
  isWithin_append_blank_append fun same => absurd (lexemesByPiece_text spelled ▸ same) opens

/-- A call starts with a word. -/
theorem head?_lexemesByPiece_call {function : Name} (word : IsIdentifier function.text)
    (arguments : List Code) :
    (call function arguments).lexemesByPiece.head? = some (.word function.text.toList) := by
  have name : (function : Code).lexemesByPiece = [.word function.text.toList] :=
    (List.flatMap_singleton _ _).trans (Piece.lexemes_name word)
  rw [call, lexemesByPiece_append, lexemesByPiece_append, lexemesByPiece_append, name]
  rfl

/-- Its name is called, and what is called in the arguments. -/
theorem calls_call {function : Name} (word : IsIdentifier function.text) (arguments : List Code) :
    (call function arguments).calls =
      (Lexeme.word function.text.toList).ownWord?.toList ++ (separated ", " arguments).calls := by
  have name : (function : Code).lexemesByPiece = [.word function.text.toList] :=
    (List.flatMap_singleton _ _).trans (Piece.lexemes_name word)
  have opening : ("(" : Code).lexemesByPiece = [.sign '('] :=
    lexemesByPiece_text (rfl : String.ofList _ = "(")
  have closing : (")" : Code).lexemesByPiece = [.sign ')'] :=
    lexemesByPiece_text (rfl : String.ofList _ = ")")
  have called : ((function : Code) ++ ("(" : Code)).calls =
      (Lexeme.word function.text.toList).ownWord?.toList := by
    rw [calls, lexemesByPiece_append, name, opening]
    exact List.append_nil _
  have silent : (")" : Code).calls = [] := by
    rw [calls, closing]
    rfl
  rw [call, calls_append, calls_append, called, silent, List.append_nil]
  -- what ends in front of the arguments is a parenthesis, which is not called
  · intro _ last found
    rw [lexemesByPiece_append, name, opening] at found
    obtain rfl : Lexeme.sign '(' = last := Option.some.inj found
    rfl
  · rw [closing]
    exact fun opens => absurd (Option.some.inj opens) (by decide)

/-- A function is called that is known, and so are those in its arguments. -/
@[simp]
theorem isWithin_call {function : Name} (isFunction : function.isFunction = true)
    {arguments : List Code} :
    (call function arguments).IsWithin v ↔
      function ∈ v.functions ∧ AllOf (IsWithin v) arguments := by
  have word : IsIdentifier function.text := Name.isIdentifier_of_isFunction isFunction
  have parts : (separated ", " arguments).IsWithin v ↔ AllOf (IsWithin v) arguments :=
    isWithin_separated (rfl : String.ofList _ = ", ") (by decide) (by decide)
      (Piece.isWithin_text rfl (by decide))
  -- two things are asked of a call: what its pieces are, and which functions its text calls
  have made : (call function arguments).IsMadeOf (Piece.IsWithin v) ↔
      function ∈ v.functions ∧ (separated ", " arguments).IsMadeOf (Piece.IsWithin v) := by
    rw [call]
    simp (disch := first | decide | exact rfl) [Name.isWithin_of_isFunction isFunction]
  constructor
  · intro within
    obtain ⟨known, argumentsMade⟩ := made.1 within.made
    have called := within.calls
    rw [calls_call word] at called
    exact ⟨known, parts.1 ⟨argumentsMade, (List.forall_mem_append.1 called).2⟩⟩
  · rintro ⟨known, argumentsWithin⟩
    have within := parts.2 argumentsWithin
    refine ⟨made.2 ⟨known, within.made⟩, ?_⟩
    rw [calls_call word]
    refine List.forall_mem_append.2 ⟨fun called member => ⟨function, known, ?_⟩, within.calls⟩
    rw [Option.mem_toList, Lexeme.ownWord?] at member
    split at member
    · exact Option.some.inj member
    · cases member

/-- A helper's call is within a vocabulary exactly if the helper is defined and the arguments are
within. -/
@[simp]
theorem isWithin_help {helper : Helper} {arguments : List Code} :
    (help helper arguments).IsWithin v ↔
      .helper helper ∈ v.functions ∧ AllOf (IsWithin v) arguments :=
  isWithin_call rfl

/-- A member access is within a vocabulary exactly if the record and the member's name are. -/
@[simp]
theorem isWithin_member {name : String} :
    (member a name).IsWithin v ↔ a.IsWithin v ∧ (name : Code).IsWithin v := by
  rw [member]
  simp (disch := first | decide | exact rfl)

/-- An element access is within a vocabulary exactly if the array and the index are. -/
@[simp]
theorem isWithin_element : (element a b).IsWithin v ↔ a.IsWithin v ∧ b.IsWithin v := by
  rw [element]
  simp (disch := first | decide | exact rfl)

end Code

end PlanCompiler
