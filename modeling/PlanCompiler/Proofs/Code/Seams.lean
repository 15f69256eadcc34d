import PlanCompiler.Proofs.Code.Erasure
import PlanCompiler.Proofs.Code.Lines

/-!
# Seams between pieces of code

Code is read as one text, but it is put together from pieces. As long as no piece ends inside of a
string literal and no word extends over the seam of two pieces, the lexemes of the text are those of
the pieces, one after the other.

What two pieces meet at is mostly a fixed text, whose first or last character is no character of a
word. So code is taken apart at its fixed texts, by lemmas that look at nothing else.

## Main definitions

* `Piece.IsWhole`: a piece has characters and ends outside of string literals;
* `Code.IsMadeOf`: all pieces of some code satisfy a condition, and no word extends over a seam.

## Main results

* `Code.scan_chars`: the lexemes of code are those of its pieces.
-/

namespace PlanCompiler

open Lexeme (scan after startsWord endsWord)

/-! ## Fixed texts -/

-- interpolated texts convert the fixed parts between their numbers
/-- A text is its own string. -/
@[simp]
theorem toList_toString_text (text : String) : (toString text).toList = text.toList := rfl

/-- The characters of a fixed text. Comparing the text with its characters is much cheaper than
taking it apart, so the lemma is used with `rfl` for its condition. -/
theorem toList_of_spelled {fixed : String} {chars : List Char}
    (spelled : String.ofList chars = fixed) : fixed.toList = chars := by
  rw [← spelled, String.toList_ofList]

namespace Spot

/-- The characters of a text end outside of string literals. This is decided character by
character. -/
def closes : Spot → List Char → Bool
  | spot, [] => !spot.inLiteral && !spot.escaped
  | ⟨inLiteral, true⟩, _ :: rest => closes ⟨inLiteral, false⟩ rest
  | ⟨inLiteral, false⟩, c :: rest =>
    if c = '\\' then closes ⟨inLiteral, true⟩ rest
    else if c = '"' then closes ⟨!inLiteral, false⟩ rest
    else closes ⟨inLiteral, false⟩ rest

/-- The test follows the text to its end. -/
theorem closes_iff {spot : Spot} {chars : List Char} :
    spot.closes chars = true ↔ spot.after chars = .outside := by
  induction chars generalizing spot with
  | nil =>
    obtain ⟨inLiteral, escaped⟩ := spot
    simp [closes, after, outside]
  | cons c rest ih =>
    obtain ⟨inLiteral, escaped⟩ := spot
    rw [after_cons, ← ih]
    cases escaped with
    | true => rfl
    | false =>
      simp only [closes, next]
      split_ifs <;> simp_all

end Spot

/-! ## Pieces -/

namespace Piece

/-- The characters of a piece. -/
def chars (piece : Piece) : List Char := piece.toText.toList

/-- The characters of a fixed text are those that spell it. -/
theorem chars_text {fixed : String} {chars : List Char} (spelled : String.ofList chars = fixed) :
    (text fixed).chars = chars :=
  toList_of_spelled spelled

/-- The lexemes of a piece on its own. -/
def lexemes (piece : Piece) : List Lexeme := scan .outside piece.chars

/-- A piece has characters, and it ends outside of string literals, whether a backslash outside of
them has a meaning or not. -/
structure IsWhole (piece : Piece) : Prop where
  nonempty : piece.chars ≠ []
  outside : after .outside piece.chars = .outside
  closed : piece.IsClosed

/-- No word extends over the seam of two pieces. -/
def Apart (front back : Piece) : Prop :=
  endsWord front.chars = true → startsWord back.chars = false

/-- The lexemes of whole pieces that are put together. -/
theorem scan_flatMap_chars {pieces : List Piece} (whole : ∀ piece ∈ pieces, piece.IsWhole)
    (apart : pieces.IsChain Apart) :
    scan .outside (pieces.flatMap chars) = pieces.flatMap lexemes ∧
      after .outside (pieces.flatMap chars) = .outside := by
  induction pieces with
  | nil => exact ⟨rfl, rfl⟩
  | cons piece rest ih =>
    obtain ⟨first, others⟩ := List.forall_mem_cons.1 whole
    obtain ⟨scanned, outside⟩ := ih others apart.tail
    -- what comes behind a piece starts as the next piece does
    have seam : endsWord piece.chars = true → startsWord (rest.flatMap chars) = false := by
      intro ends
      cases rest with
      | nil => rfl
      | cons next rest =>
        have nonempty := (others next List.mem_cons_self).nonempty
        rw [List.flatMap_cons, startsWord, List.head?_append_of_ne_nil _ nonempty]
        exact (List.isChain_cons_cons.1 apart).1 ends
    -- since the first piece ends outside of literals, the others are read as if on their own
    constructor
    · rw [List.flatMap_cons, List.flatMap_cons, Lexeme.scan_append fun _ => seam, first.outside,
        scanned, lexemes]
    · rw [List.flatMap_cons, Lexeme.after_append, first.outside, outside]

/-- The characters of a text that can be read on its own. -/
def isWholeText (chars : List Char) : Bool :=
  !chars.isEmpty && after .outside chars = .outside && Spot.outside.closes chars

/-- The test says that the text has characters and ends outside of literals. -/
theorem isWholeText_iff {chars : List Char} :
    isWholeText chars = true ↔
      chars ≠ [] ∧ after .outside chars = .outside ∧ Spot.outside.after chars = .outside := by
  simp [isWholeText, Spot.closes_iff, and_assoc]

/-- A fixed text that passes the test is whole. -/
@[simp]
theorem isWhole_text {fixed : String} {chars : List Char} (spelled : String.ofList chars = fixed)
    (whole : isWholeText chars = true) : (text fixed).IsWhole := by
  rw [← chars_text spelled, isWholeText_iff] at whole
  exact ⟨whole.1, whole.2.1, whole.2.2⟩

/-- A string literal is a lexeme. -/
theorem lexemes_literal (contents : String) : (literal contents).lexemes = [.literal] :=
  Lexeme.scan_stringLiteral contents

/-- So is a name that is a word. -/
theorem lexemes_name {identifier : Name} (word : IsIdentifier identifier.text) :
    (name identifier).lexemes = [.word identifier.text.toList] :=
  Lexeme.scan_word identifier.toList_text_ne_nil word

/-- A string literal is whole, whatever it contains. -/
@[simp]
theorem isWhole_literal (contents : String) : (literal contents).IsWhole where
  nonempty := by
    rw [chars, toText, Code.stringLiteral, String.toList_ofList]
    exact List.cons_ne_nil _ _
  outside := Lexeme.after_stringLiteral contents
  closed := Spot.after_stringLiteral contents

/-- An identifier is whole. -/
theorem isWhole_name {identifier : Name} (word : IsIdentifier identifier.text) :
    (name identifier).IsWhole where
  nonempty := identifier.toList_text_ne_nil
  outside := Lexeme.after_of_forall word
  closed := Spot.after_of_isPlainChar (fun c member => Spot.isPlainChar_of_isWordChar
    (word c member)) rfl

end Piece

namespace Code

/-- The lexemes of the pieces of code, each piece read on its own. -/
def lexemesByPiece (code : Code) : List Lexeme := code.pieces.flatMap Piece.lexemes

/-- The lexemes of code in a row are those of its parts. -/
@[simp]
theorem lexemesByPiece_append (a b : Code) :
    (a ++ b).lexemesByPiece = a.lexemesByPiece ++ b.lexemesByPiece :=
  List.flatMap_append

/-- The lexemes of a fixed text are those of its characters. -/
theorem lexemesByPiece_text {fixed : String} {chars : List Char}
    (spelled : String.ofList chars = fixed) :
    (fixed : Code).lexemesByPiece = scan .outside chars := by
  rw [← toList_of_spelled spelled]
  exact List.flatMap_singleton _ _

/-- Code is taken apart from behind. -/
@[simp]
theorem append_append (a b c : Code) : a ++ (b ++ c) = a ++ b ++ c :=
  congrArg Code.mk (List.append_assoc a.pieces b.pieces c.pieces).symm

/-- All pieces of code satisfy a condition, and no word extends over the seam of two of them. -/
structure IsMadeOf (condition : Piece → Prop) (code : Code) : Prop where
  pieces : ∀ piece ∈ code.pieces, condition piece
  apart : code.pieces.IsChain Piece.Apart

/-- Code that can be read piece by piece. -/
abbrev IsWhole (code : Code) : Prop := code.IsMadeOf Piece.IsWhole

variable {condition : Piece → Prop} {a b : Code}

/-- Pieces that satisfy a condition satisfy a weaker one. -/
theorem IsMadeOf.imp (made : a.IsMadeOf condition) {condition' : Piece → Prop}
    (weaker : ∀ piece, condition piece → condition' piece) : a.IsMadeOf condition' :=
  ⟨fun piece member => weaker piece (made.pieces piece member), made.apart⟩

section

variable (whole : a.IsWhole)
include whole

/-- Code that can be read piece by piece has the lexemes of its pieces. -/
theorem scan_chars : scan .outside a.chars = a.lexemesByPiece := by
  rw [chars_eq_flatMap]
  exact (Piece.scan_flatMap_chars whole.pieces whole.apart).1

/-- Whole code ends outside of literals. -/
theorem after_chars : after .outside a.chars = .outside := by
  rw [chars_eq_flatMap]
  exact (Piece.scan_flatMap_chars whole.pieces whole.apart).2

/-- Whole code is closed. -/
theorem IsWhole.isClosed : a.IsClosed := fun piece member => (whole.pieces piece member).closed

end

/-! ## Taking code apart -/

/-- Code in a row is made of such pieces exactly if its parts are, where no word extends over the
seam. -/
theorem isMadeOf_append_iff
    (seam : ∀ front ∈ a.pieces.getLast?, ∀ back ∈ b.pieces.head?, front.Apart back) :
    (a ++ b).IsMadeOf condition ↔ a.IsMadeOf condition ∧ b.IsMadeOf condition := by
  constructor
  · rintro ⟨pieces, apart⟩
    obtain ⟨first, second⟩ := List.forall_mem_append.1 pieces
    obtain ⟨apart, apart', -⟩ := List.isChain_append.1 apart
    exact ⟨⟨first, apart⟩, ⟨second, apart'⟩⟩
  · rintro ⟨first, second⟩
    exact ⟨List.forall_mem_append.2 ⟨first.pieces, second.pieces⟩,
      List.isChain_append.2 ⟨first.apart, second.apart, seam⟩⟩

/-- Empty code is made of any pieces. -/
@[simp]
theorem isMadeOf_empty : empty.IsMadeOf condition :=
  ⟨List.forall_mem_nil _, .nil⟩

/-- Code of one piece is made of such pieces exactly if that piece is one. -/
theorem isMadeOf_singleton {piece : Piece} :
    (⟨[piece]⟩ : Code).IsMadeOf condition ↔ condition piece :=
  ⟨fun made => made.pieces piece List.mem_cons_self,
    fun satisfied => ⟨List.forall_mem_singleton.2 satisfied, List.isChain_singleton _⟩⟩

/-- A fixed text is made of such pieces exactly if it is one. -/
@[simp]
theorem isMadeOf_text {fixed : String} :
    (fixed : Code).IsMadeOf condition ↔ condition (.text fixed) :=
  isMadeOf_singleton

/-- A name is made of such pieces exactly if it is one. -/
@[simp]
theorem isMadeOf_name {name : Name} : (name : Code).IsMadeOf condition ↔ condition (.name name) :=
  isMadeOf_singleton

/-- A string literal is made of such pieces exactly if it is one. -/
@[simp]
theorem isMadeOf_literal {contents : String} :
    (literal contents).IsMadeOf condition ↔ condition (.literal contents) :=
  isMadeOf_singleton

section

variable {text : String}

/-- No word extends over a seam with a text that starts with none. -/
theorem isMadeOf_append_of_startsWord (starts : startsWord text.toList = false) :
    (a ++ (text : Code)).IsMadeOf condition ↔
      a.IsMadeOf condition ∧ (text : Code).IsMadeOf condition := by
  refine isMadeOf_append_iff fun front _ back found _ => ?_
  obtain rfl : .text text = back := Option.some.inj found
  exact starts

/-- No word extends over a seam with a text that ends with none. -/
theorem isMadeOf_append_of_endsWord (ends : endsWord text.toList = false) :
    ((text : Code) ++ b).IsMadeOf condition ↔
      (text : Code).IsMadeOf condition ∧ b.IsMadeOf condition := by
  refine isMadeOf_append_iff fun front found back _ endsWord => ?_
  obtain rfl : .text text = front := Option.some.inj found
  exact absurd (ends.symm.trans endsWord) nofun

end

section

variable {fixed : String} {chars : List Char} (spelled : String.ofList chars = fixed)
include spelled

/-- A fixed text that starts no word can stand behind anything. -/
@[simp]
theorem isMadeOf_append_text (starts : startsWord chars = false) :
    (a ++ (fixed : Code)).IsMadeOf condition ↔
      a.IsMadeOf condition ∧ (fixed : Code).IsMadeOf condition :=
  isMadeOf_append_of_startsWord (by rwa [toList_of_spelled spelled])

/-- A fixed text that ends no word can stand in front of anything. -/
@[simp]
theorem isMadeOf_text_append (ends : endsWord chars = false) :
    ((fixed : Code) ++ b).IsMadeOf condition ↔
      (fixed : Code).IsMadeOf condition ∧ b.IsMadeOf condition :=
  isMadeOf_append_of_endsWord (by rwa [toList_of_spelled spelled])

/-- Behind a text that ends with no word, the rest is judged by itself. -/
@[simp]
theorem isMadeOf_append_text_append (ends : endsWord chars = false) :
    (a ++ (fixed : Code) ++ b).IsMadeOf condition ↔
      (a ++ (fixed : Code)).IsMadeOf condition ∧ b.IsMadeOf condition := by
  refine isMadeOf_append_iff fun front found back _ endsWord => ?_
  -- the text is the last piece in front of the seam, whatever stands in front of it
  rw [pieces_append, List.getLast?_append_of_ne_nil _ (List.cons_ne_nil _ _)] at found
  obtain rfl : .text fixed = front := Option.some.inj found
  rw [Piece.chars_text spelled, ends] at endsWord
  cases endsWord

/-- Parts with a separator between them that neither starts nor ends a word. -/
theorem isMadeOf_separated (starts : startsWord chars = false) (ends : endsWord chars = false)
    (satisfied : condition (.text fixed)) {parts : List Code} :
    (separated fixed parts).IsMadeOf condition ↔ AllOf (IsMadeOf condition) parts := by
  induction parts with
  | nil => simp [separated]
  | cons part rest ih =>
    cases rest with
    | nil => simp [separated]
    | cons next rest =>
      rw [separated, isMadeOf_append_text_append spelled ends, isMadeOf_append_text spelled starts,
        ih, isMadeOf_text, AllOf.cons_iff]
      · simp [satisfied]
      · exact List.cons_ne_nil next rest

end

end Code

end PlanCompiler
