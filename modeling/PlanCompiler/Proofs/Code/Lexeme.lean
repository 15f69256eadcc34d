import PlanCompiler.Code.Basic
import PlanCompiler.Proofs.Numeral

/-!
# Lexemes of the generated program

The text of a program is taken apart into words, string literals and signs, as a C compiler does
it. Texts that are put together have the lexemes of their parts, as long as no word extends over
the seam and no part ends inside of a string literal.

## Main definitions

* `Lexeme.scan`: the lexemes of a text;
* `Lexeme.after`: whether a text ends inside of a string literal.

## Main results

* `Lexeme.scan_append`: the lexemes of texts that are put together;
* `Lexeme.scan_word`: a word is one lexeme;
* `Lexeme.scan_stringLiteral`: a string literal is one lexeme, whatever its contents.
-/

namespace PlanCompiler

/-- A lexical element of a program. -/
inductive Lexeme where
  /-- A run of letters, digits and underscores. -/
  | word (chars : List Char)
  /-- A string literal. -/
  | literal
  /-- Any other character that is not blank. -/
  | sign (c : Char)
deriving DecidableEq, Repr

namespace Lexeme

/-- A character of words. -/
def isWordChar (c : Char) : Bool := c.isAlphanum || c = '_'

/-- A text starts with a character of a word. -/
def startsWord (chars : List Char) : Bool := chars.head?.any isWordChar

/-- A text ends with a character of a word. -/
def endsWord (chars : List Char) : Bool := chars.getLast?.any isWordChar

/-- Where a character stands. -/
inductive Mode where
  /-- Outside of string literals. -/
  | outside
  /-- In a string literal. -/
  | inside
  /-- In a string literal behind a backslash. -/
  | escaped
deriving DecidableEq, Repr

/-- Where the character after a given one stands. -/
def Mode.next : Mode → Char → Mode
  | .outside, c => if c = '"' then .inside else .outside
  | .inside, c => if c = '"' then .outside else if c = '\\' then .escaped else .inside
  | .escaped, _ => .inside

/-- Where the character after a text stands. -/
def after (mode : Mode) (chars : List Char) : Mode := chars.foldl Mode.next mode

/-- Puts a character in front of the word that some lexemes start with. -/
def prolong (c : Char) : List Lexeme → List Lexeme
  | .word chars :: rest => .word (c :: chars) :: rest
  | lexemes => lexemes

/-- The lexemes of a text; a string literal counts where it starts. -/
def scan : Mode → List Char → List Lexeme
  | _, [] => []
  | .outside, c :: rest =>
    if isWordChar c then
      if startsWord rest then prolong c (scan .outside rest) else .word [c] :: scan .outside rest
    else if c = '"' then .literal :: scan .inside rest
    else if c = ' ' ∨ c = '\t' then scan .outside rest
    else .sign c :: scan .outside rest
  | mode, c :: rest => scan (mode.next c) rest

/-! ## Words -/

/-- How the first character is read outside of literals. -/
theorem scan_cons_outside (c : Char) (rest : List Char) :
    scan .outside (c :: rest) =
      if isWordChar c then
        if startsWord rest then prolong c (scan .outside rest) else .word [c] :: scan .outside rest
      else if c = '"' then .literal :: scan .inside rest
      else if c = ' ' ∨ c = '\t' then scan .outside rest
      else .sign c :: scan .outside rest := by
  rw [scan]

/-- Inside of a literal, a character only leads on. -/
theorem scan_cons_inside {mode : Mode} (c : Char) (rest : List Char) (inside : mode ≠ .outside) :
    scan mode (c :: rest) = scan (mode.next c) rest := by
  cases mode with
  | outside => exact absurd rfl inside
  | inside | escaped => rw [scan]; exact inside

/-- A text that starts with a character of a word starts with a word. -/
theorem exists_scan_of_startsWord {chars : List Char} (starts : startsWord chars = true) :
    ∃ word rest, scan .outside chars = .word word :: rest := by
  induction chars with
  | nil => cases starts
  | cons c rest ih =>
    have wordChar : isWordChar c = true := starts
    rw [scan_cons_outside, if_pos wordChar]
    by_cases more : startsWord rest = true
    · obtain ⟨word, others, scanned⟩ := ih more
      rw [if_pos more, scanned]
      exact ⟨c :: word, others, rfl⟩
    · rw [if_neg more]
      exact ⟨[c], _, rfl⟩

/-- A character prolongs the first word whatever lexemes follow. -/
theorem prolong_append (c : Char) {chars : List Char} (starts : startsWord chars = true)
    (others : List Lexeme) :
    prolong c (scan .outside chars ++ others) = prolong c (scan .outside chars) ++ others := by
  obtain ⟨word, rest, scanned⟩ := exists_scan_of_startsWord starts
  rw [scanned]
  rfl

/-! ## Texts that are put together -/

/-- Behind no characters, the mode stays. -/
@[simp]
theorem after_nil (mode : Mode) : after mode [] = mode := rfl

/-- The first character leads to the mode for the others. -/
@[simp]
theorem after_cons (mode : Mode) (c : Char) (rest : List Char) :
    after mode (c :: rest) = after (mode.next c) rest := rfl

/-- A text leads on from where the text in front of it led. -/
@[simp]
theorem after_append (mode : Mode) (front back : List Char) :
    after mode (front ++ back) = after (after mode front) back :=
  List.foldl_append

/-- How a text ends depends on its back only. -/
theorem endsWord_append (front : List Char) {back : List Char} (nonempty : back ≠ []) :
    endsWord (front ++ back) = endsWord back := by
  rw [endsWord, List.getLast?_append_of_ne_nil _ nonempty, endsWord]

/-- Texts that are put together have the lexemes of their parts, unless a word extends over the
seam. -/
theorem scan_append {mode : Mode} {front back : List Char}
    (apart : after mode front = .outside → endsWord front = true → startsWord back = false) :
    scan mode (front ++ back) = scan mode front ++ scan (after mode front) back := by
  induction front generalizing mode with
  | nil => cases mode <;> rfl
  | cons c front ih =>
    -- what follows the first character has the same end
    have rest : scan (mode.next c) (front ++ back) =
        scan (mode.next c) front ++ scan (after (mode.next c) front) back := by
      refine ih fun outside ends => apart outside ?_
      cases front with
      | nil => cases ends
      | cons next front => rwa [← List.singleton_append, endsWord_append _ (List.cons_ne_nil _ _)]
    by_cases inside : mode ≠ .outside
    · rw [List.cons_append, scan_cons_inside _ _ inside, scan_cons_inside _ _ inside, rest,
        after_cons]
    obtain rfl := not_not.1 inside
    rw [List.cons_append, scan_cons_outside, scan_cons_outside, after_cons]
    rw [Mode.next] at rest
    by_cases wordChar : isWordChar c = true
    · -- a character of a word does not open a literal
      have noQuote : c ≠ '"' := by
        rintro rfl
        exact absurd wordChar (by decide)
      rw [if_neg noQuote] at rest
      rw [if_pos wordChar, if_pos wordChar, Mode.next, if_neg noQuote, rest]
      have starts : startsWord (front ++ back) = startsWord front := by
        cases front with
        | nil => exact apart (by simp [Mode.next, noQuote]) wordChar
        | cons next front => rfl
      rw [starts]
      by_cases more : startsWord front = true
      · rw [if_pos more, if_pos more, prolong_append c more]
      · rw [if_neg more, if_neg more, List.cons_append]
    · rw [if_neg wordChar, if_neg wordChar, Mode.next]
      by_cases quote : c = '"'
      · rw [if_pos quote] at rest
        rw [if_pos quote, if_pos quote, if_pos quote, rest, List.cons_append]
      · rw [if_neg quote] at rest
        rw [if_neg quote, if_neg quote, if_neg quote, rest]
        split <;> rfl

/-! ## Words and string literals as a whole -/

/-- A text of word characters starts with a word. -/
theorem startsWord_of_forall {chars : List Char} (nonempty : chars ≠ [])
    (all : ∀ c ∈ chars, isWordChar c = true) : startsWord chars = true := by
  cases chars with
  | nil => exact absurd rfl nonempty
  | cons c rest => exact all c List.mem_cons_self

/-- A word is one lexeme. -/
theorem scan_word {chars : List Char} (nonempty : chars ≠ [])
    (all : ∀ c ∈ chars, isWordChar c = true) : scan .outside chars = [.word chars] := by
  induction chars with
  | nil => exact absurd rfl nonempty
  | cons c rest ih =>
    rw [scan_cons_outside, if_pos (all c List.mem_cons_self)]
    have restAll : ∀ c ∈ rest, isWordChar c = true := fun c member =>
      all c (List.mem_cons_of_mem _ member)
    by_cases more : rest = []
    · rw [more]
      rfl
    · rw [if_pos (startsWord_of_forall more restAll), ih more restAll]
      rfl

/-- Without a quote there is no string literal. -/
theorem after_of_notMem {chars : List Char} (noQuote : '"' ∉ chars) :
    after .outside chars = .outside := by
  induction chars with
  | nil => rfl
  | cons c rest ih =>
    rw [List.mem_cons, not_or] at noQuote
    rw [after_cons, Mode.next, if_neg (Ne.symm noQuote.1)]
    exact ih noQuote.2

/-- Word characters stay outside of literals. -/
theorem after_of_forall {chars : List Char} (all : ∀ c ∈ chars, isWordChar c = true) :
    after .outside chars = .outside :=
  after_of_notMem fun quote => absurd (all '"' quote) (by decide)

/-- The characters of a word stand in the text. -/
theorem mem_of_word_mem_scan {mode : Mode} {chars word : List Char}
    (member : .word word ∈ scan mode chars) {c : Char} (inWord : c ∈ word) : c ∈ chars := by
  induction chars generalizing mode word with
  | nil => cases mode <;> cases member
  | cons first rest ih =>
    by_cases inside : mode ≠ .outside
    · rw [scan_cons_inside _ _ inside] at member
      exact List.mem_cons_of_mem _ (ih member inWord)
    obtain rfl := not_not.1 inside
    rw [scan_cons_outside] at member
    split at member
    · split at member
      · rename_i more
        -- the word goes on in the rest of the text
        obtain ⟨word', others, scanned⟩ := exists_scan_of_startsWord more
        rw [scanned, prolong] at member
        rcases List.mem_cons.1 member with same | member
        · obtain rfl := Lexeme.word.inj same
          rcases List.mem_cons.1 inWord with rfl | inWord
          · exact List.mem_cons_self
          · exact List.mem_cons_of_mem _ (ih (scanned ▸ List.mem_cons_self) inWord)
        · exact List.mem_cons_of_mem _ (ih (scanned ▸ List.mem_cons_of_mem _ member) inWord)
      · rcases List.mem_cons.1 member with same | member
        · obtain rfl := Lexeme.word.inj same
          rw [List.mem_singleton.1 inWord]
          exact List.mem_cons_self
        · exact List.mem_cons_of_mem _ (ih member inWord)
    · -- neither a literal nor a blank nor a sign is a word
      split at member
      · exact List.mem_cons_of_mem _ (ih ((List.mem_cons.1 member).resolve_left nofun) inWord)
      · split at member
        · exact List.mem_cons_of_mem _ (ih member inWord)
        · exact List.mem_cons_of_mem _ (ih ((List.mem_cons.1 member).resolve_left nofun) inWord)

/-- A sign stands in the text. -/
theorem mem_of_sign_mem_scan {mode : Mode} {chars : List Char} {c : Char}
    (member : .sign c ∈ scan mode chars) : c ∈ chars := by
  induction chars generalizing mode with
  | nil => cases mode <;> cases member
  | cons first rest ih =>
    -- signs are scanned outside of literals only
    by_cases inside : mode ≠ .outside
    · rw [scan_cons_inside _ _ inside] at member
      exact List.mem_cons_of_mem _ (ih member)
    obtain rfl := not_not.1 inside
    rw [scan_cons_outside] at member
    split at member
    · split at member
      · rename_i more
        obtain ⟨word, others, scanned⟩ := exists_scan_of_startsWord more
        rw [scanned, prolong] at member
        have later := (List.mem_cons.1 member).resolve_left nofun
        exact List.mem_cons_of_mem _ (ih (scanned ▸ List.mem_cons_of_mem _ later))
      · exact List.mem_cons_of_mem _ (ih ((List.mem_cons.1 member).resolve_left nofun))
    · split at member
      · exact List.mem_cons_of_mem _ (ih ((List.mem_cons.1 member).resolve_left nofun))
      · split at member
        · exact List.mem_cons_of_mem _ (ih member)
        · rcases List.mem_cons.1 member with same | member
          · rw [Lexeme.sign.inj same]
            exact List.mem_cons_self
          · exact List.mem_cons_of_mem _ (ih member)

/-! ## String literals -/

/-- A character in a string literal that has no meaning of its own. -/
def isOrdinary (c : Char) : Bool := c ≠ '"' ∧ c ≠ '\\' ∧ c ≠ '\n'

/-- Characters that keep a reader inside of a string literal. -/
structure StaysInside (chars : List Char) : Prop where
  /-- There is no lexeme in them. -/
  silent : scan .inside chars = []
  /-- The literal goes on behind them. -/
  goesOn : after .inside chars = .inside
  /-- The line goes on as well. -/
  sameLine : '\n' ∉ chars

/-- The empty text stays inside of a literal. -/
theorem StaysInside.nil : StaysInside [] := ⟨rfl, rfl, List.not_mem_nil⟩

/-- An ordinary character in front stays inside. -/
theorem StaysInside.cons {c : Char} {rest : List Char} (plain : isOrdinary c = true)
    (inside : StaysInside rest) : StaysInside (c :: rest) := by
  rw [isOrdinary, decide_eq_true_iff] at plain
  obtain ⟨noQuote, noBackslash, sameLine⟩ := plain
  have stays : Mode.next .inside c = .inside := by
    rw [Mode.next, if_neg noQuote, if_neg noBackslash]
  refine ⟨?_, ?_, ?_⟩
  · rw [scan_cons_inside _ _ (nofun : Mode.inside ≠ .outside), stays, inside.silent]
  · rw [after_cons, stays, inside.goesOn]
  · rw [List.mem_cons, not_or]
    exact ⟨Ne.symm sameLine, inside.sameLine⟩

/-- A backslash takes the meaning of the character behind it. -/
theorem StaysInside.escape {c : Char} {rest : List Char} (sameLine : c ≠ '\n')
    (inside : StaysInside rest) : StaysInside ('\\' :: c :: rest) := by
  refine ⟨?_, ?_, ?_⟩
  · exact inside.silent
  · exact inside.goesOn
  · rw [List.mem_cons, List.mem_cons, not_or, not_or]
    exact ⟨by decide, Ne.symm sameLine, inside.sameLine⟩

/-- Digits stay inside of a literal. -/
theorem StaysInside.of_isDigit {chars : List Char} (digits : ∀ c ∈ chars, c.isDigit = true) :
    StaysInside chars := by
  induction chars with
  | nil => exact .nil
  | cons c rest ih =>
    refine .cons ?_ (ih fun c member => digits c (List.mem_cons_of_mem _ member))
    have digit := digits c List.mem_cons_self
    rw [isOrdinary, decide_eq_true_iff]
    refine ⟨?_, ?_, ?_⟩ <;> rintro rfl <;> exact absurd digit (by decide)

/-- Texts that stay inside do so in a row. -/
theorem StaysInside.append {front back : List Char} (first : StaysInside front)
    (second : StaysInside back) : StaysInside (front ++ back) := by
  refine ⟨?_, ?_, ?_⟩
  · rw [scan_append fun outside => absurd (first.goesOn.symm.trans outside) nofun, first.silent,
      first.goesOn, second.silent, List.append_nil]
  · rw [after_append, first.goesOn, second.goesOn]
  · rw [List.mem_append, not_or]
    exact ⟨first.sameLine, second.sameLine⟩

/-- The octal digits of a byte, filled up to three. -/
theorem toList_octalByte (byte : UInt8) :
    (Numeral.octalByte byte).toList =
      List.replicate (3 - (Nat.toDigits 8 byte.toNat).length) '0' ++ Nat.toDigits 8 byte.toNat := by
  rw [Numeral.octalByte, Numeral.zeroFill, String.toList_append, String.toList_ofList,
    Numeral.inBase, String.toList_ofList, String.length_ofList]

/-- The octal digits of a byte are digits. -/
theorem isDigit_of_mem_octalByte {byte : UInt8} {c : Char}
    (member : c ∈ (Numeral.octalByte byte).toList) : c.isDigit = true := by
  rw [toList_octalByte] at member
  rcases List.mem_append.1 member with zero | digit
  · rw [List.eq_of_mem_replicate zero]
    rfl
  · exact Nat.isDigit_of_mem_toDigits (by decide) (by decide) digit

/-- A byte has at least one octal digit. -/
theorem octalByte_ne_nil (byte : UInt8) : (Numeral.octalByte byte).toList ≠ [] := by
  rw [toList_octalByte]
  exact List.append_ne_nil_of_right_ne_nil _ Nat.toDigits_ne_nil

/-- A byte as a character has its own number. -/
theorem toNat_ofNat_byte (byte : UInt8) : (Char.ofNat byte.toNat).toNat = byte.toNat := by
  have valid : byte.toNat.isValidChar := .inl (by have := byte.toNat_lt; omega)
  rw [Char.ofNat, dif_pos valid]
  rfl

/-- A byte is written as an ordinary character, or as a backslash with a character behind it and
digits behind that. -/
theorem stringByte_cases (byte : UInt8) :
    (∃ c, isOrdinary c = true ∧ Code.stringByte byte = [c]) ∨
      ∃ c digits, c ≠ '\n' ∧ (∀ d ∈ digits, d.isDigit = true) ∧
        Code.stringByte byte = '\\' :: c :: digits := by
  have noDigits : ∀ d ∈ ([] : List Char), d.isDigit = true := List.forall_mem_nil _
  rw [Code.stringByte]
  split_ifs with quote backslash question printable
  · exact .inr ⟨_, [], by decide, noDigits, rfl⟩
  · exact .inr ⟨_, [], by decide, noDigits, rfl⟩
  · exact .inr ⟨_, [], by decide, noDigits, rfl⟩
  · -- a printable character other than those above
    refine .inl ⟨_, ?_, rfl⟩
    rw [isOrdinary, decide_eq_true_iff]
    have back := toNat_ofNat_byte byte
    refine ⟨?_, ?_, ?_⟩ <;> intro same <;> rw [same] at back
    · exact quote (UInt8.toNat_inj.1 back.symm)
    · exact backslash (UInt8.toNat_inj.1 back.symm)
    · have low : 0x20 ≤ byte.toNat := UInt8.le_iff_toNat_le.1 printable.1
      have feed : byte.toNat = 10 := back.symm
      change 32 ≤ byte.toNat at low
      omega
  · -- the first of the three digits is escaped
    have digits := @isDigit_of_mem_octalByte byte
    have nonempty := octalByte_ne_nil byte
    cases octal : (Numeral.octalByte byte).toList with
    | nil => exact absurd octal nonempty
    | cons first rest =>
      rw [octal] at digits
      refine .inr ⟨first, rest, ?_, fun c member => digits (List.mem_cons_of_mem _ member), rfl⟩
      rintro rfl
      exact absurd (digits List.mem_cons_self) (by decide)

/-- What stands for a byte does not end a literal. -/
theorem staysInside_stringByte (byte : UInt8) : StaysInside (Code.stringByte byte) := by
  rcases stringByte_cases byte with ⟨c, ordinary, written⟩ | ⟨c, digits, sameLine, all, written⟩
  · rw [written]
    exact .cons ordinary .nil
  · rw [written]
    exact .escape sameLine (.of_isDigit all)

/-- The escaped bytes of a literal stay inside. -/
theorem staysInside_flatMap_stringByte (bytes : List UInt8) :
    StaysInside (bytes.flatMap Code.stringByte) := by
  induction bytes with
  | nil => exact .nil
  | cons byte rest ih => exact (staysInside_stringByte byte).append ih

section

variable (contents : String)

/-- A string literal is one lexeme, whatever its contents. -/
theorem scan_stringLiteral : scan .outside (Code.stringLiteral contents).toList = [.literal] := by
  have inside := staysInside_flatMap_stringByte contents.toUTF8.data.toList
  rw [Code.stringLiteral, String.toList_ofList, scan_cons_outside, if_neg (by decide), if_pos rfl,
    scan_append fun outside => absurd (inside.goesOn.symm.trans outside) nofun, inside.silent,
    inside.goesOn]
  rfl

/-- A string literal is closed by its own end. -/
theorem after_stringLiteral : after .outside (Code.stringLiteral contents).toList = .outside := by
  have inside := staysInside_flatMap_stringByte contents.toUTF8.data.toList
  rw [Code.stringLiteral, String.toList_ofList, after_cons, after_append]
  exact congrArg (after · ['"']) inside.goesOn

/-- A string literal has no line feed. -/
theorem newline_notMem_stringLiteral : '\n' ∉ (Code.stringLiteral contents).toList := by
  have inside := staysInside_flatMap_stringByte contents.toUTF8.data.toList
  rw [Code.stringLiteral, String.toList_ofList, List.mem_cons, List.mem_append, not_or, not_or]
  exact ⟨by decide, inside.sameLine, by decide⟩

end

end Lexeme

end PlanCompiler
