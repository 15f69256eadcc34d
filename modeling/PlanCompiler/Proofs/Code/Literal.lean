import PlanCompiler.Code.Literal
import PlanCompiler.Proofs.Binary64.Text
import PlanCompiler.Proofs.Code.Plain

/-!
# Literals in lines

The literals of numbers and dates are plain parts of lines: they have no blank, no quote, and no
word in them that is spelled like a variable.

## Main results

* `Code.isPlain_intLiteral`, `Code.isPlain_floatLiteral`, `Code.isPlain_dateLiteral`.
-/

namespace PlanCompiler

/-- The characters of a written number. -/
def isNumeralChar (c : Char) : Bool := c.isDigit || ['.', 'e', '-', '+'].contains c

/-- A text consists of characters of numbers. -/
def IsNumeral (chars : List Char) : Prop := chars ≠ [] ∧ ∀ c ∈ chars, isNumeralChar c = true

/-- A digit is a character of numerals. -/
theorem isNumeralChar_of_isDigit {c : Char} (digit : c.isDigit = true) :
    isNumeralChar c = true := by
  rw [isNumeralChar, digit, Bool.true_or]

/-- No other character occurs in a number. -/
theorem IsNumeral.notMem {chars : List Char} (numeral : IsNumeral chars) {c : Char}
    (other : isNumeralChar c = false) : c ∉ chars :=
  fun member => absurd (numeral.2 c member) (by rw [other]; decide)

namespace Scope

open Lexeme

/-- Two words of a number have a sign between them. -/
theorem leads_of_isNumeral {chars : List Char} (numeral : IsNumeral chars) :
    leads true (scan .outside chars) = true := by
  obtain ⟨nonempty, all⟩ := numeral
  induction chars with
  | nil => exact absurd rfl nonempty
  | cons c rest ih =>
    have restAll : ∀ c ∈ rest, isNumeralChar c = true := fun c member =>
      all c (List.mem_cons_of_mem _ member)
    have first := all c List.mem_cons_self
    have notLoop : c ≠ 'f' := by
      rintro rfl
      exact absurd first (by decide)
    rw [scan_cons_outside]
    by_cases wordChar : isWordChar c = true
    · rw [if_pos wordChar]
      by_cases more : startsWord rest = true
      · -- the word goes on in the rest, which has the same lexemes behind it
        rw [if_pos more]
        obtain ⟨word, others, scanned⟩ := exists_scan_of_startsWord more
        have restNonempty : rest ≠ [] := by
          rintro rfl
          cases more
        have restLeads := ih restNonempty restAll
        rw [scanned] at restLeads ⊢
        cases others with
        | nil => simp [prolong, leads, notLoop]
        | cons next others =>
          rw [leads, Bool.and_eq_true] at restLeads
          simp only [prolong, leads, restLeads.1, Bool.true_and]
          simp [notLoop]
      · rw [if_neg more]
        cases rest with
        | nil => simp [scan, leads, notLoop]
        | cons d rest =>
          -- what comes behind the word is a sign
          have other : isWordChar d = false := Bool.not_eq_true _ ▸ more
          have second := restAll d List.mem_cons_self
          have plain : d ≠ '"' ∧ d ≠ ' ' ∧ d ≠ '\t' ∧ d ≠ '*' := by
            refine ⟨?_, ?_, ?_, ?_⟩ <;> rintro rfl <;> exact absurd second (by decide)
          rw [scan_cons_outside, other]
          simp [plain, leads, isSpecifier, notLoop]
    · rw [if_neg wordChar]
      have plain : c ≠ '"' ∧ c ≠ ' ' ∧ c ≠ '\t' := by
        refine ⟨?_, ?_, ?_⟩ <;> rintro rfl <;> exact absurd first (by decide)
      simp [plain, leads]

end Scope

namespace Code

variable {scopes : Scope.Names}

/-- Texts that are the same are plain together. -/
theorem IsPlain.congr {code code' : Code} (plain : code.IsPlain scopes)
    (same : code'.chars = code.chars) : code'.IsPlain scopes := by
  rw [IsPlain, same]
  exact plain

/-- A numeral is plain. -/
theorem isPlain_of_isNumeral {code : Code} (numeral : IsNumeral code.chars) :
    code.IsPlain scopes := by
  refine ⟨Lexeme.after_of_notMem (numeral.notMem (by decide)), Scope.leads_of_isNumeral numeral,
    fun _ => rfl, fun brace => ?_, fun word member ofNode => ?_, numeral.notMem (by decide)⟩
  · obtain ⟨lexeme, last, isBrace⟩ := (Option.any_eq_true _ _).1 brace
    cases lexeme with
    | word | literal => cases isBrace
    | sign c =>
      have inText := Lexeme.mem_of_sign_mem_scan (List.mem_of_getLast? last)
      rcases of_decide_eq_true isBrace with rfl | rfl <;>
        exact absurd inText (numeral.notMem (by decide))
  · -- a variable starts with a letter that no number has
    cases word with
    | nil => cases ofNode
    | cons c rest =>
      have first := numeral.2 c (Lexeme.mem_of_word_mem_scan member List.mem_cons_self)
      rw [Lexeme.isVariable, Bool.and_eq_true, Bool.and_eq_true, List.contains_iff_mem] at ofNode
      simp only [List.mem_cons, List.not_mem_nil, or_false] at ofNode
      rcases ofNode.1.1 with rfl | rfl | rfl | rfl | rfl | rfl <;> exact absurd first (by decide)

/-- The text of an integer is a numeral. -/
theorem isNumeral_toString_int (n : Int) : IsNumeral (toString n).toList := by
  rw [Numeral.toList_toString_int]
  split
  · refine ⟨List.cons_ne_nil _ _, fun c member => ?_⟩
    rcases List.mem_cons.1 member with rfl | member
    · decide
    · exact isNumeralChar_of_isDigit (Numeral.isDigit_of_mem_toDigits member)
  · exact ⟨Nat.toDigits_ne_nil, fun c member =>
      isNumeralChar_of_isDigit (Numeral.isDigit_of_mem_toDigits member)⟩

/-- An integer literal is plain. -/
theorem isPlain_intLiteral (n : Int64) : (intLiteral n : Code).IsPlain scopes := by
  rw [intLiteral]
  split
  · exact (Fits.start _).isPlain
  · have plain : ((toString n.toInt : String) : Code).IsPlain scopes :=
      isPlain_of_isNumeral (by rw [chars_text]; exact isNumeral_toString_int _)
    refine (Fits.start "INT64_C(" |>.code plain |>.text ")").isPlain.congr ?_
    simp

/-- A decimal is a number in either notation. -/
theorem isNumeral_text (format : FloatFormat) (d : Decimal) : IsNumeral (d.text format).toList := by
  rw [Decimal.text]
  split
  · have written := d.written_positional
    obtain ⟨first, rest, spelled, -⟩ := written.exists_eq_cons
    refine ⟨by rw [spelled]; exact List.cons_ne_nil _ _, fun c member => ?_⟩
    rcases written.isDigit_or_point member with digit | rfl
    · exact isNumeralChar_of_isDigit digit
    · decide
  · have digits : ∀ c ∈ Nat.toDigits 10 d.digits, isNumeralChar c = true := fun c member =>
      isNumeralChar_of_isDigit (Numeral.isDigit_of_mem_toDigits member)
    rw [Decimal.scientific]
    simp only [String.toList_append, String.toList_ofList]
    refine ⟨by simp, fun c member => ?_⟩
    -- digits around a point, the letter, a sign and the digits of the power of ten
    simp only [List.mem_append] at member
    rcases member with (((whole | fraction) | letter) | sign) | power
    · exact digits c (List.mem_of_mem_take whole)
    · split at fraction
      · cases fraction
      · rw [String.toList_append, List.mem_append] at fraction
        rcases fraction with point | fraction
        · obtain rfl := List.mem_singleton.1 point
          decide
        · rw [String.toList_ofList] at fraction
          exact digits c (List.mem_of_mem_drop fraction)
    · obtain rfl := List.mem_singleton.1 letter
      decide
    · split at sign
      · obtain rfl := List.mem_singleton.1 sign
        decide
      · split at sign
        · obtain rfl := List.mem_singleton.1 sign
          decide
        · cases sign
    · exact isNumeralChar_of_isDigit (Numeral.isDigit_of_mem_zeroFill power)

/-- The text of a finite number is a numeral, in both formats. -/
theorem isNumeral_finiteText (format : FloatFormat) (x : Binary64) :
    IsNumeral (x.finiteText format).toList := by
  -- zero is written by hand, any other number by its shortest digits
  have size :
      IsNumeral (if x.isZero then "0.0" else (x.shortest format.tie).text format).toList := by
    split
    · exact ⟨by decide, List.all_eq_true.1 (by decide)⟩
    · exact isNumeral_text format _
  rw [Binary64.finiteText, String.toList_append]
  refine ⟨List.append_ne_nil_of_right_ne_nil _ size.1, fun c member => ?_⟩
  rcases List.mem_append.1 member with sign | member
  · rw [Binary64.signText] at sign
    split at sign
    · obtain rfl := List.mem_singleton.1 sign
      decide
    · cases sign
  · exact size.2 c member

/-- A float literal is plain. -/
theorem isPlain_floatLiteral (x : Binary64) : (floatLiteral x : Code).IsPlain scopes := by
  rw [floatLiteral]
  split
  · exact (Fits.start _).isPlain
  split
  · split <;> exact (Fits.start _).isPlain
  · have plain : ((x.finiteText floatFormat : String) : Code).IsPlain scopes :=
      isPlain_of_isNumeral (by rw [chars_text]; exact isNumeral_finiteText _ _)
    refine (Fits.start "(" |>.code plain |>.text ")").isPlain.congr ?_
    simp

/-- A date literal is plain. -/
theorem isPlain_dateLiteral (days : Int32) : (dateLiteral days : Code).IsPlain scopes := by
  have plain : ((toString days.toInt : String) : Code).IsPlain scopes :=
    isPlain_of_isNumeral (by rw [chars_text]; exact isNumeral_toString_int _)
  refine (Fits.start "((int32_t)" |>.code plain |>.text ")").isPlain.congr ?_
  simp [dateLiteral]

end Code

end PlanCompiler
