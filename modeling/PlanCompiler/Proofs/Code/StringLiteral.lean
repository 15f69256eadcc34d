import Mathlib.Data.List.TakeWhile
import PlanCompiler.Proofs.Code.Lexeme

/-!
# What a string literal stands for

A reader of C takes a string literal apart byte by byte. It does not know where the escape of a byte
was meant to end: an octal number goes on for as long as there are octal digits, up to three, and
two question marks may start a trigraph. Still the bytes that are read are those that were written.
An octal escape has all its three digits, and a quote or a question mark always has a backslash in
front, so that what stands for a byte is read alone, whatever comes behind it.

## Main definitions

* `Code.readStringLiteral?`: the bytes of a string literal and what comes behind it;
* `Code.Denotes`: what is written for a byte.

## Main results

* `Code.denotes_stringByte`: the three ways in which a byte is written;
* `Code.Denotes.readContents?_append`: each of them is read as that byte, whatever comes behind it;
* `Code.stringLiteral_readable`: string literals are read back.
-/

namespace PlanCompiler.Code

/-! ## The reader -/

/-- A printable ASCII character. -/
def isPrintable (c : Char) : Bool := ' ' ≤ c ∧ c ≤ '~'

def isOctalDigit (c : Char) : Bool := '0' ≤ c ∧ c ≤ '7'

/-- A character that stands for itself behind a backslash. -/
def isEscapable (c : Char) : Bool := ['"', '\\', '?'].contains c

/-- The byte of an ASCII character. -/
def charByte (c : Char) : UInt8 := UInt8.ofNat c.toNat

/-- Reads what comes behind a backslash: an octal number that has as many digits as there are, but
not more than three, or a character. The number must fit into a byte. -/
def readEscape? (chars : List Char) : Option (UInt8 × List Char) :=
  let digits := (chars.take 3).takeWhile isOctalDigit
  if digits = [] then
    match chars with
    | [] => none
    | c :: rest => if isEscapable c then some (charByte c, rest) else none
  else
    let value := Nat.ofDigitChars 8 digits 0
    if value < 256 then some (UInt8.ofNat value, chars.drop digits.length) else none

/-- Reading an escape takes at least one character. -/
theorem length_lt_of_readEscape? {chars rest : List Char} {byte : UInt8}
    (read : readEscape? chars = some (byte, rest)) : rest.length < chars.length := by
  unfold readEscape? at read
  dsimp only at read
  split at read
  · split at read
    · cases read
    · split at read
      · obtain ⟨-, rfl⟩ := Prod.mk.inj (Option.some.inj read)
        exact Nat.lt_succ_self _
      · cases read
  · rename_i digits
    split at read
    · obtain ⟨-, rfl⟩ := Prod.mk.inj (Option.some.inj read)
      have some := List.length_pos_iff.2 digits
      -- at least one digit is taken, and no more than are there
      have most := ((List.takeWhile_sublist isOctalDigit (l := chars.take 3)).trans
        (List.take_sublist 3 chars)).length_le
      rw [List.length_drop]
      omega
    · cases read

/-- Reads the bytes up to the quote that ends a literal, and what comes behind it. -/
def readContents? : List Char → Option (List UInt8 × List Char)
  | [] => none
  | c :: rest =>
    if c = '"' then some ([], rest)
    else if c = '\\' then
      match _ : readEscape? rest with
      | none => none
      | some (byte, others) => (readContents? others).map (Prod.map (byte :: ·) id)
    else if isPrintable c then (readContents? rest).map (Prod.map (charByte c :: ·) id)
    else none
termination_by chars => chars.length
decreasing_by
  · have := length_lt_of_readEscape? ‹_›
    exact Nat.lt_succ_of_lt this
  · exact Nat.lt_succ_self _

/-- Behind a backslash, the escape's byte comes first and the others follow. -/
theorem readContents?_backslash {chars rest : List Char} {byte : UInt8}
    (read : readEscape? chars = some (byte, rest)) :
    readContents? ('\\' :: chars) = (readContents? rest).map (Prod.map (byte :: ·) id) := by
  rw [readContents?, if_neg (by decide), if_pos rfl]
  split
  · rename_i none
    cases none.symm.trans read
  · rename_i found
    obtain ⟨rfl, rfl⟩ := Prod.mk.inj (Option.some.inj (found.symm.trans read))
    rfl

/-- Reads the bytes of a string literal, and what comes behind it. -/
def readStringLiteral? : List Char → Option (List UInt8 × List Char)
  | '"' :: rest => readContents? rest
  | _ => none

/-! ## What is written for a byte -/

/-- Characters stand for a byte in a string literal. -/
inductive Denotes : List Char → UInt8 → Prop
  /-- A character that has no meaning of its own. -/
  | plain {c : Char} (printable : isPrintable c = true) (ordinary : isEscapable c = false) :
    Denotes [c] (charByte c)
  /-- A character whose meaning is taken by a backslash. -/
  | escaped {c : Char} (escapable : isEscapable c = true) : Denotes ['\\', c] (charByte c)
  /-- An octal number, with all the digits that it may have. -/
  | octal {digits : List Char} {byte : UInt8} (three : digits.length = 3)
    (octal : ∀ d ∈ digits, isOctalDigit d = true)
    (value : Nat.ofDigitChars 8 digits 0 = byte.toNat) : Denotes ('\\' :: digits) byte

/-- A character is printable from the blank to the tilde. -/
theorem isPrintable_iff {c : Char} : isPrintable c = true ↔ 0x20 ≤ c.toNat ∧ c.toNat ≤ 0x7E := by
  rw [isPrintable, decide_eq_true_iff, Char.le_def, Char.le_def, UInt32.le_iff_toNat_le,
    UInt32.le_iff_toNat_le]
  rfl

/-- Only the quote, the backslash and the question mark are escaped by themselves. -/
theorem mem_of_isEscapable {c : Char} (escapable : isEscapable c = true) :
    c = '"' ∨ c = '\\' ∨ c = '?' := by
  simpa [isEscapable] using escapable

/-- A digit below eight is written as an octal digit. -/
theorem isOctalDigit_digitChar {digit : Nat} (small : digit < 8) :
    isOctalDigit (Nat.digitChar digit) = true := by
  revert digit
  decide

/-- The octal digits are those from zero to seven. -/
theorem isOctalDigit_iff {c : Char} : isOctalDigit c = true ↔ 0x30 ≤ c.toNat ∧ c.toNat ≤ 0x37 := by
  rw [isOctalDigit, decide_eq_true_iff, Char.le_def, Char.le_def, UInt32.le_iff_toNat_le,
    UInt32.le_iff_toNat_le]
  rfl

/-- An escaped character stands for itself. -/
theorem readEscape?_of_isEscapable {c : Char} (escapable : isEscapable c = true)
    (rest : List Char) : readEscape? (c :: rest) = some (charByte c, rest) := by
  rcases mem_of_isEscapable escapable with rfl | rfl | rfl <;> rfl

/-- Three digits are the whole number, even if another digit comes behind them. -/
theorem readEscape?_of_isOctalDigit {digits : List Char} {byte : UInt8} (three : digits.length = 3)
    (octal : ∀ d ∈ digits, isOctalDigit d = true)
    (value : Nat.ofDigitChars 8 digits 0 = byte.toNat) (rest : List Char) :
    readEscape? (digits ++ rest) = some (byte, rest) := by
  have most : (digits ++ rest).take 3 = digits := List.take_left' three
  have all : digits.takeWhile isOctalDigit = digits := List.takeWhile_eq_self_iff.2 octal
  have nonempty : digits ≠ [] := List.ne_nil_of_length_eq_add_one three
  unfold readEscape?
  dsimp only
  rw [most, all, if_neg nonempty, value, if_pos byte.toNat_lt, UInt8.ofNat_toNat, List.drop_left]

/-- The octal number of a byte with leading zeros. -/
theorem denotes_octalByte (byte : UInt8) :
    Denotes ('\\' :: (Numeral.octalByte byte).toList) byte := by
  rw [Lexeme.toList_octalByte]
  refine .octal ?_ ?_ ?_
  -- a byte has three octal digits at most, so filling up to three makes exactly three
  · have short := (Nat.length_toDigits_le_iff (n := byte.toNat) (b := 8) (k := 3) (by decide)
      (by decide)).2 (by have := byte.toNat_lt; omega)
    rw [List.length_append, List.length_replicate]
    omega
  · intro d member
    rcases List.mem_append.1 member with zero | digit
    · rw [List.eq_of_mem_replicate zero]
      rfl
    · obtain ⟨value, small, rfl⟩ := Numeral.exists_digitChar_of_mem_toDigits (by decide) digit
      exact isOctalDigit_digitChar small
  · rw [Nat.ofDigitChars_append, Nat.ofDigitChars_replicate_zero, Nat.mul_zero,
      Nat.ofDigitChars_toDigits (by decide) (by decide)]

/-- The three ways in which a byte is written. -/
theorem denotes_stringByte (byte : UInt8) : Denotes (stringByte byte) byte := by
  rw [stringByte]
  split_ifs with quote backslash question printable
  · exact quote ▸ .escaped (c := '"') (by decide)
  · exact backslash ▸ .escaped (c := '\\') (by decide)
  · exact question ▸ .escaped (c := '?') (by decide)
  · have back := Lexeme.toNat_ofNat_byte byte
    have same : charByte (Char.ofNat byte.toNat) = byte := by
      rw [charByte, back, UInt8.ofNat_toNat]
    have low : 0x20 ≤ byte.toNat := UInt8.le_iff_toNat_le.1 printable.1
    have high : byte.toNat ≤ 0x7E := UInt8.le_iff_toNat_le.1 printable.2
    -- the bytes that are escaped were told apart before
    have ordinary : isEscapable (Char.ofNat byte.toNat) = false := by
      refine Bool.eq_false_iff.2 fun escapable => ?_
      rcases mem_of_isEscapable escapable with is | is | is <;> rw [is] at back
      · exact quote (UInt8.toNat_inj.1 back.symm)
      · exact backslash (UInt8.toNat_inj.1 back.symm)
      · exact question (UInt8.toNat_inj.1 back.symm)
    have denotes := Denotes.plain (isPrintable_iff.2 (back.symm ▸ ⟨low, high⟩)) ordinary
    rwa [same] at denotes
  · exact denotes_octalByte byte

namespace Denotes

variable {chars : List Char} {byte : UInt8}

/-- What a byte is written as is printable. -/
theorem forall_isPrintable (denotes : Denotes chars byte) : ∀ c ∈ chars, isPrintable c = true := by
  cases denotes with
  | plain printable => exact List.forall_mem_singleton.2 printable
  | @escaped c escapable =>
    refine List.forall_mem_cons.2 ⟨by decide, List.forall_mem_singleton.2 ?_⟩
    rcases mem_of_isEscapable escapable with rfl | rfl | rfl <;> decide
  | octal _ octal =>
    refine List.forall_mem_cons.2 ⟨by decide, fun d member => ?_⟩
    obtain ⟨low, high⟩ := isOctalDigit_iff.1 (octal d member)
    exact isPrintable_iff.2 (by omega)

/-- What stands for a byte is read as that byte, whatever comes behind it. -/
theorem readContents?_append (denotes : Denotes chars byte) (rest : List Char) :
    readContents? (chars ++ rest) = (readContents? rest).map (Prod.map (byte :: ·) id) := by
  cases denotes with
  | @plain c printable ordinary =>
    -- an ordinary character is neither of those with a meaning
    have noQuote : c ≠ '"' := by rintro rfl; cases ordinary
    have noBackslash : c ≠ '\\' := by rintro rfl; cases ordinary
    rw [List.singleton_append, readContents?, if_neg noQuote, if_neg noBackslash, if_pos printable]
  | escaped escapable => exact readContents?_backslash (readEscape?_of_isEscapable escapable rest)
  | octal three octal value =>
    exact readContents?_backslash (readEscape?_of_isOctalDigit three octal value rest)

/-- A quote or a question mark comes behind a backslash. -/
theorem after_eq_escaped (denotes : Denotes chars byte) {mark : Char}
    (isMark : mark = '"' ∨ mark = '?') {front back : List Char}
    (parted : chars = front ++ mark :: back) : Lexeme.after .inside front = .escaped := by
  have member : mark ∈ chars := parted ▸ List.mem_append_right _ List.mem_cons_self
  cases denotes with
  | plain _ ordinary =>
    obtain rfl := List.mem_singleton.1 member
    rcases isMark with rfl | rfl <;> cases ordinary
  | escaped =>
    -- the backslash itself is no mark, so the mark is the character behind it
    cases front with
    | nil =>
      obtain ⟨rfl, -⟩ := List.cons.inj parted
      rcases isMark with is | is <;> cases is
    | cons first front =>
      obtain ⟨rfl, rest⟩ := List.cons.inj parted
      obtain ⟨rfl, -⟩ := List.append_eq_singleton_iff.1 rest.symm |>.resolve_right (by simp)
      rfl
  | octal _ octal =>
    rcases List.mem_cons.1 member with rfl | member
    · rcases isMark with is | is <;> cases is
    · have digit := octal mark member
      rcases isMark with rfl | rfl <;> cases digit

end Denotes

/-! ## String literals -/

/-- Written bytes are read back up to the quote behind them. -/
theorem readContents?_flatMap (bytes : List UInt8) (rest : List Char) :
    readContents? (bytes.flatMap stringByte ++ '"' :: rest) = some (bytes, rest) := by
  induction bytes with
  | nil => rw [List.flatMap_nil, List.nil_append, readContents?, if_pos rfl]
  | cons byte bytes ih =>
    rw [List.flatMap_cons, List.append_assoc, (denotes_stringByte byte).readContents?_append, ih]
    rfl

/-- Written bytes are printable. -/
theorem isPrintable_of_mem_flatMap {bytes : List UInt8} {c : Char}
    (member : c ∈ bytes.flatMap stringByte) : isPrintable c = true := by
  obtain ⟨byte, -, member⟩ := List.mem_flatMap.1 member
  exact (denotes_stringByte byte).forall_isPrintable c member

/-- Every quote and every question mark in a literal comes behind a backslash that takes its
meaning. -/
theorem after_eq_escaped_of_flatMap {bytes : List UInt8} {mark : Char}
    (isMark : mark = '"' ∨ mark = '?') {front back : List Char}
    (parted : bytes.flatMap stringByte = front ++ mark :: back) :
    Lexeme.after .inside front = .escaped := by
  induction bytes generalizing front with
  | nil => cases front <;> cases parted
  | cons byte bytes ih =>
    have goesOn := (Lexeme.staysInside_stringByte byte).goesOn
    -- the mark belongs to what is written for this byte, or for one of the others
    have here {others : List Char} (same : bytes.flatMap stringByte = others ++ mark :: back) :
        Lexeme.after .inside (stringByte byte ++ others) = .escaped := by
      rw [Lexeme.after_append, goesOn]
      exact ih same
    rw [List.flatMap_cons] at parted
    rcases List.append_eq_append_iff.1 parted with ⟨others, rfl, later⟩ | ⟨tail, early, rest⟩
    · exact here later
    · cases tail with
      | nil =>
        have later : bytes.flatMap stringByte = [] ++ mark :: back := rest.symm
        rw [← List.append_nil front, ← early, ← List.append_nil (stringByte byte)]
        exact here later
      | cons first tail =>
        obtain ⟨rfl, -⟩ := List.cons.inj rest
        exact (denotes_stringByte byte).after_eq_escaped isMark early

/-- A backslash takes the meaning of one character only, so that no two question marks are next to
each other. -/
theorem not_isInfix_flatMap (bytes : List UInt8) :
    ¬ ['?', '?'] <:+: bytes.flatMap stringByte := by
  rintro ⟨front, back, whole⟩
  have before : bytes.flatMap stringByte = front ++ '?' :: ('?' :: back) := by simp [← whole]
  have between : bytes.flatMap stringByte = (front ++ ['?']) ++ '?' :: back := by simp [← whole]
  have first := after_eq_escaped_of_flatMap (.inr rfl) before
  -- the first question mark uses the backslash up
  have second := after_eq_escaped_of_flatMap (.inr rfl) between
  rw [Lexeme.after_append, first] at second
  cases second

/-- There is no trigraph in a literal. -/
theorem not_isInfix_literal (bytes : List UInt8) :
    ¬ ['?', '?'] <:+: '"' :: (bytes.flatMap stringByte ++ ['"']) := by
  rw [List.infix_cons_iff, List.infix_concat_iff]
  rintro (atStart | atEnd | inside)
  · cases (List.cons_prefix_cons.1 atStart).1
  · obtain ⟨front, same⟩ := atEnd
    rw [← List.singleton_append, ← List.append_assoc, List.append_singleton_inj] at same
    cases same.2
  · exact not_isInfix_flatMap bytes inside

/-- A string literal consists of printable ASCII characters between two quotes. No other quote ends
it, and it has no trigraph. A reader finds the bytes of the text in it, whatever comes behind. -/
theorem stringLiteral_readable (s : String) :
    ∃ body, (stringLiteral s).toList = '"' :: (body ++ ['"']) ∧
      (∀ c ∈ body, isPrintable c = true) ∧
      (∀ front back, body = front ++ '"' :: back → Lexeme.after .inside front = .escaped) ∧
      ¬ ['?', '?'] <:+: (stringLiteral s).toList ∧
      ∀ rest, readStringLiteral? ((stringLiteral s).toList ++ rest) =
        some (s.toUTF8.data.toList, rest) := by
  have written : (stringLiteral s).toList =
      '"' :: (s.toUTF8.data.toList.flatMap stringByte ++ ['"']) := by
    rw [stringLiteral, String.toList_ofList]
  rw [written]
  -- the body is what the bytes are written as one by one
  refine ⟨_, rfl, fun c => isPrintable_of_mem_flatMap,
    fun front back => after_eq_escaped_of_flatMap (.inl rfl), not_isInfix_literal _,
    fun rest => ?_⟩
  rw [List.cons_append, List.append_assoc]
  exact readContents?_flatMap _ rest

/-- The digit behind the escapes of `é` is none of theirs. -/
example : readStringLiteral? "\"\\303\\2517\\?\" + 1".toList =
    some ([0xC3, 0xA9, 0x37, 0x3F], " + 1".toList) := by
  cbv

end PlanCompiler.Code
