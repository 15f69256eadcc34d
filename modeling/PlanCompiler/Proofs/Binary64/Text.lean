import Mathlib.Data.List.TakeWhile
import Mathlib.Data.Nat.Cast.Field
import PlanCompiler.Expr.Printer
import PlanCompiler.Proofs.Binary64.Shortest
import PlanCompiler.Proofs.Numeral

/-!
# Reading float literals

A float literal of a plan is written without a power of ten. What is written stands for a
rational number that the float covers, and so it is read back as the float.

## Main definitions

* `Binary64.Written`: digits on both sides of a point that stand for a rational number.

## Main results

* `Decimal.written_positional`: the digits of a decimal stand for its value;
* `Binary64.ofUnsigned?_of_written`: what stands for a covered number is read as the float;
* `Binary64.ofText?_planText`: every literal but NaN is read back;
* `Binary64.ofText?_planText_eq`: NaN is read as the NaN without sign and payload;
* `Binary64.exists_planText_eq_cons`: the characters of a literal.
-/

namespace PlanCompiler

namespace Decimal

/-- A decimal that is not zero is between two powers of ten. -/
theorem pow_leading_le {d : Decimal} (nonzero : d.digits ≠ 0) :
    (10 : ℚ) ^ d.leading ≤ d.value ∧ d.value < 10 ^ (d.leading + 1) := by
  have ⟨lower, upper⟩ := pow_digitCount_le (Nat.pos_of_ne_zero nonzero)
  have some : 0 < digitCount d.digits := Nat.length_toDigits_pos
  have lower' : (10 : ℚ) ^ (digitCount d.digits - 1) ≤ d.digits := by exact_mod_cast lower
  have upper' : (d.digits : ℚ) < 10 ^ digitCount d.digits := by exact_mod_cast upper
  have unit : (0 : ℚ) < 10 ^ d.exponent := by positivity
  constructor
  · rw [show d.leading = (digitCount d.digits - 1 : ℕ) + d.exponent by unfold leading; omega,
      zpow_add₀ (by norm_num), zpow_natCast]
    exact mul_le_mul_of_nonneg_right lower' unit.le
  · rw [show d.leading + 1 = digitCount d.digits + d.exponent by unfold leading; omega,
      zpow_add₀ (by norm_num), zpow_natCast]
    exact mul_lt_mul_of_pos_right upper' unit

end Decimal

namespace Binary64

variable {x : Binary64}

/-! ## The range of covered numbers -/

/-- What a finite number covers lies within the powers of ten that are computed. -/
theorem Covers.range {q : ℚ} (covers : x.Covers q) (finite : x.isFinite) (nonzero : ¬ x.isZero) :
    (10 : ℚ) ^ (-330 : ℤ) ≤ q ∧ q < 10 ^ (310 : ℤ) := by
  have ⟨lower, upper, _⟩ := covers.bounds
  have least : (1 : ℚ) ≤ x.significand := by exact_mod_cast significand_pos nonzero
  have low : (4 * x.significand : ℚ) ≤ x.interval.low + 2 := by exact_mod_cast x.le_interval_low
  have high : (x.significand + 1 : ℚ) ≤ 2 * leadingBit := by exact_mod_cast x.significand_lt
  have places : q = q / 2 ^ x.exponent * 2 ^ x.exponent := by field_simp
  have factor : (0 : ℚ) ≤ leadingBit * 2 := by positivity
  -- the exponents of finite numbers go from -1074 to 971
  have small : (2 : ℚ) ^ (-1074 : ℤ) ≤ 2 ^ x.exponent := by
    gcongr
    · norm_num
    · exact x.le_exponent
  have large : (2 : ℚ) ^ x.exponent ≤ 2 ^ (971 : ℤ) := by
    gcongr
    · norm_num
    · exact Int.le_of_lt_add_one (exponent_lt finite)
  generalize q / 2 ^ x.exponent = y at *
  have unit : (0 : ℚ) < 2 ^ x.exponent := by positivity
  have above : 1 / 2 ≤ y := by linarith only [lower, low, least]
  have below : y < leadingBit * 2 := by linarith only [upper, high]
  have two_pow : (2 : ℚ) ^ 1075 ≤ 10 ^ 330 := by
    exact_mod_cast (by decide +kernel : 2 ^ 1075 ≤ 10 ^ 330)
  have two_pow' : (leadingBit * 2 * 2 ^ 971 : ℚ) ≤ 10 ^ 310 := by
    exact_mod_cast (by decide +kernel : leadingBit * 2 * 2 ^ 971 ≤ 10 ^ 310)
  constructor
  · calc (10 : ℚ) ^ (-330 : ℤ) = 1 / 10 ^ 330 := by rw [zpow_neg, zpow_ofNat, one_div]
      _ ≤ 1 / 2 ^ 1075 := by gcongr
      _ = 1 / 2 * 2 ^ (-1074 : ℤ) := by
        rw [zpow_neg, zpow_ofNat, pow_succ _ 1074, one_div, one_div, mul_inv, mul_comm]
      _ ≤ y * 2 ^ x.exponent := mul_le_mul above small (by positivity) (by linarith only [above])
      _ = q := places.symm
  · calc q = y * 2 ^ x.exponent := places
      _ < leadingBit * 2 * 2 ^ x.exponent := mul_lt_mul_of_pos_right below unit
      _ ≤ leadingBit * 2 * 2 ^ (971 : ℤ) := mul_le_mul_of_nonneg_left large factor
      _ ≤ 10 ^ (310 : ℤ) := by
        rw [zpow_ofNat, zpow_ofNat]
        exact two_pow'

/-- The first digit of a covered decimal is where floats have theirs. -/
theorem Covers.leading {d : Decimal} (covers : x.Covers d.value) (finite : x.isFinite)
    (nonzero : ¬ x.isZero) : d.digits ≠ 0 ∧ -330 ≤ d.leading ∧ d.leading < 310 := by
  obtain ⟨least, most⟩ := covers.range finite nonzero
  have digits : d.digits ≠ 0 := by
    intro none
    rw [Decimal.value, none, Nat.cast_zero, zero_mul] at least
    exact absurd least (not_le.2 (by positivity))
  obtain ⟨lower, upper⟩ := Decimal.pow_leading_le digits
  have low : (-330 : ℤ) < d.leading + 1 :=
    (zpow_lt_zpow_iff_right₀ (by norm_num)).1 (least.trans_lt upper)
  have high : d.leading < 310 :=
    (zpow_lt_zpow_iff_right₀ (by norm_num)).1 (lower.trans_lt most)
  exact ⟨digits, by omega, high⟩

/-- A decimal of a covered number is read as the number. -/
theorem ofDecimal_eq_self {d : Decimal} (finite : x.isFinite) (nonzero : ¬ x.isZero)
    (covers : x.Covers d.value) : ofDecimal x.isNegative d = x := by
  have ⟨digits, low, high⟩ := covers.leading finite nonzero
  have ratio := cast_pow_toNat_div (b := 10) (by decide) d.exponent
  rw [ofDecimal, if_neg (by omega), if_neg (by omega)]
  refine ofRatio_eq_self finite ?_ (Nat.pow_pos (by decide)).ne' ?_
  · exact Nat.mul_ne_zero digits (Nat.pow_pos (by decide)).ne'
  · rw [Nat.cast_mul, mul_div_assoc, ratio]
    exact covers

/-- A decimal zero is read as the zero of its sign. -/
theorem ofDecimal_of_value_eq_zero {d : Decimal} (negative : Bool) (h : d.value = 0) :
    ofDecimal negative d = zero negative := by
  have none : d.digits = 0 := by
    have power : (10 : ℚ) ^ d.exponent ≠ 0 := by positivity
    exact_mod_cast (mul_eq_zero.1 h).resolve_right power
  rw [ofDecimal, if_pos (Or.inl none)]

/-! ## Digits around a point -/

/-- Digits on both sides of a point, some of them before it, that stand for a rational number. -/
def Written (chars : List Char) (q : ℚ) : Prop :=
  ∃ whole fraction n, chars = whole ++ '.' :: fraction ∧ whole ≠ [] ∧
    Numeral.natural? (whole ++ fraction) = some n ∧
      Decimal.value { digits := n, exponent := -fraction.length } = q

/-- The digits before the point end at the point. -/
theorem ofUnsigned?_of_written {chars : List Char} {q : ℚ} (h : Written chars q) (negative : Bool) :
    ∃ d : Decimal, d.value = q ∧ ofUnsigned? negative chars = some (ofDecimal negative d) := by
  obtain ⟨whole, fraction, n, rfl, -, natural, value⟩ := h
  have ⟨_, digits, _⟩ := Numeral.natural?_eq_some_iff.1 natural
  have before : ∀ c ∈ whole, c.isDigit = true := fun c member =>
    digits c (List.mem_append_left _ member)
  have after : ∀ c ∈ fraction, c.isDigit = true := fun c member =>
    digits c (List.mem_append_right _ member)
  refine ⟨_, value, ?_⟩
  -- all digits before the point are taken, and then all after it
  have point : ('.' :: fraction).takeWhile Char.isDigit = [] := rfl
  have rest : ('.' :: fraction).dropWhile Char.isDigit = '.' :: fraction := rfl
  rw [ofUnsigned?, List.takeWhile_append_of_pos before, List.dropWhile_append_of_pos before, point,
    rest, List.append_nil]
  simp only [List.takeWhile_eq_self_iff.2 after, List.dropWhile_eq_nil_iff.2 after, natural]
  simp [exponentOf?]

end Binary64

namespace Decimal

/-- The digits of a decimal stand for its value. -/
theorem written_positional (d : Decimal) : Binary64.Written d.positional.toList d.value := by
  unfold positional
  dsimp only
  have digits := Numeral.natural?_toDigits d.digits
  by_cases integral : 0 ≤ d.exponent
  · -- the zeros of a positive exponent, the point and a zero follow the digits
    rw [if_pos integral, String.toList_append, String.toList_ofList]
    refine ⟨_, ['0'], 10 ^ (d.exponent.toNat + 1) * d.digits, rfl,
      List.append_ne_nil_of_left_ne_nil Nat.toDigits_ne_nil _, ?_, ?_⟩
    · rw [List.append_assoc, ← List.replicate_succ']
      exact Numeral.natural?_append_zeros _ digits
    · have power : (10 : ℚ) ^ d.exponent = 10 ^ d.exponent.toNat := by
        rw [← zpow_natCast, Int.toNat_of_nonneg integral]
      rw [value, value, power, pow_succ, List.length_singleton, Nat.cast_one, zpow_neg_one]
      push_cast
      field_simp
  · rw [if_neg integral, String.toList_append, String.toList_append, String.toList_ofList,
      String.toList_ofList, String.toList_ofList, List.append_assoc]
    -- zeros are filled in until at least one digit stands before the point
    generalize hplaces : (-d.exponent).toNat = places
    generalize hfilled : List.replicate (places + 1 - (Nat.toDigits 10 d.digits).length) '0' ++
      Nat.toDigits 10 d.digits = filled
    have long : places < filled.length := by
      rw [← hfilled, List.length_append, List.length_replicate]
      omega
    refine ⟨filled.take (filled.length - places), filled.drop (filled.length - places), d.digits,
      rfl, ?_, ?_, ?_⟩
    · rw [Ne, List.take_eq_nil_iff]
      rintro (none | none)
      · omega
      · rw [none] at long
        exact Nat.not_lt_zero _ long
    · rw [List.take_append_drop, ← hfilled]
      exact Numeral.natural?_zeros_append _ digits
    · rw [List.length_drop, Nat.sub_sub_self long.le, ← hplaces, Int.toNat_of_nonneg (by omega),
        Int.neg_neg]

end Decimal

namespace Binary64

variable {x : Binary64}

/-- What stands for a number starts with a digit. -/
theorem Written.exists_eq_cons {chars : List Char} {q : ℚ} (h : Written chars q) :
    ∃ first rest, chars = first :: rest ∧ first.isDigit = true := by
  obtain ⟨whole, fraction, n, rfl, nonempty, natural, -⟩ := h
  obtain ⟨first, others, rfl⟩ := List.exists_cons_of_ne_nil nonempty
  exact ⟨first, _, rfl, (Numeral.natural?_eq_some_iff.1 natural).2.1 first List.mem_cons_self⟩

/-- A written number has digits and points only. -/
theorem Written.isDigit_or_point {chars : List Char} {q : ℚ} (h : Written chars q) {c : Char}
    (member : c ∈ chars) : c.isDigit = true ∨ c = '.' := by
  obtain ⟨whole, fraction, n, rfl, -, natural, -⟩ := h
  have ⟨_, digits, _⟩ := Numeral.natural?_eq_some_iff.1 natural
  rcases List.mem_append.1 member with before | after
  · exact Or.inl (digits c (List.mem_append_left _ before))
  · rcases List.mem_cons.1 after with point | after
    · exact Or.inr point
    · exact Or.inl (digits c (List.mem_append_right _ after))

/-- A whole number is written with a zero behind the point. -/
theorem written_integral (n : ℕ) : Written (toString n ++ ".0").toList n := by
  have written := Decimal.written_positional { digits := n, exponent := 0 }
  rw [Decimal.value, zpow_zero, mul_one] at written
  rw [String.toList_append, Numeral.toList_toString]
  simpa [Decimal.positional] using written

/-! ## Literals -/

/-- A zero has no significand. -/
theorem significand_eq_zero (h : x.isZero) : x.significand = 0 := by
  have none : x.magnitude = 0 := of_decide_eq_true h
  have sum := x.magnitude_eq
  omega

/-- The integer that is written for a number without a fraction is the number. -/
theorem cast_integral (integral : x.isIntegral) : ((x.ratio.1 / x.ratio.2 : ℕ) : ℚ) = x.size := by
  have whole : x.ratio.2 ∣ x.ratio.1 := by
    rw [isIntegral, decide_eq_true_iff] at integral
    exact Nat.dvd_of_mod_eq_zero integral.2
  have positive : 0 < x.ratio.2 := Nat.two_pow_pos _
  rw [← cast_ratio_div, Nat.cast_div whole (by exact_mod_cast positive.ne')]

/-- A literal has a sign, and then the word for infinity or digits around a point. -/
theorem planText_form (number : ¬ x.isNaN) :
    (x.isInfinite ∧ x.planText.toList = x.signText.toList ++ "inf".toList) ∨
      ∃ chars q, x.isFinite ∧ x.planText.toList = x.signText.toList ++ chars ∧ Written chars q ∧
        (if x.isZero then q = 0 else x.Covers q) := by
  unfold planText
  rw [if_neg number]
  by_cases infinite : x.isInfinite
  · left
    rw [if_pos infinite, String.toList_append]
    exact ⟨infinite, rfl⟩
  right
  rw [if_neg infinite]
  have finite : x.isFinite := by
    simp only [isNaN, isInfinite, isFinite, decide_eq_true_iff] at *
    omega
  by_cases integral : x.isIntegral
  · -- an integer is written exactly, with a zero after the point
    rw [if_pos integral, integralText, String.append_assoc, String.toList_append]
    refine ⟨_, _, finite, rfl, written_integral _, ?_⟩
    rw [cast_integral integral]
    split
    · rename_i none
      rw [size, significand_eq_zero none, Nat.cast_zero, zero_mul]
    · rename_i nonzero
      exact covers_size nonzero
  · -- a fraction is written by the shortest decimal, and zero is none
    have nonzero : ¬ x.isZero := by
      intro none
      rw [isIntegral, decide_eq_true_iff] at integral
      refine integral ⟨finite, ?_⟩
      rw [ratio, significand_eq_zero none, Nat.zero_mul]
      exact Nat.zero_mod _
    have covers := covers_shortest planFormat.tie nonzero
    obtain ⟨-, low, high⟩ := covers.leading finite nonzero
    rw [if_neg integral, finiteText, if_neg nonzero, String.toList_append, Decimal.text, if_pos]
    · refine ⟨_, _, finite, rfl, Decimal.written_positional _, ?_⟩
      rw [if_neg nonzero]
      exact covers
    · unfold planFormat at *
      dsimp only at *
      omega

/-- The sign is taken off before the rest is read. -/
theorem ofText?_signText_append (x : Binary64) {first : Char} {rest : List Char}
    (minus : first ≠ '-') (plus : first ≠ '+') :
    ofText? (x.signText.toList ++ first :: rest) =
      (ofUnsigned? x.isNegative (first :: rest) <|> ofWord? x.isNegative (first :: rest)) := by
  unfold ofText? signText
  cases x.isNegative with
  | true => rfl
  | false =>
    -- no sign is written, so the first character must not be taken for one
    rw [if_neg (by decide), String.toList_empty, List.nil_append]
    split
    rename_i taken
    split at taken
    · rename_i equal
      cases equal
      exact absurd rfl minus
    · rename_i equal
      cases equal
      exact absurd rfl plus
    · cases taken
      rfl

/-- A float literal is read back, unless it is NaN. -/
theorem ofText?_planText (number : ¬ x.isNaN) : ofText? x.planText.toList = some x := by
  rcases planText_form number with ⟨infinite, text⟩ | ⟨chars, q, finite, text, written, value⟩
  · have self : infinity x.isNegative = x := by
      rw [infinity, ← of_decide_eq_true (p := x.magnitude = infinityMagnitude) infinite,
        ofMagnitude_magnitude]
    rw [text]
    refine (x.ofText?_signText_append (by decide) (by decide)).trans ?_
    conv_rhs => rw [← self]
    cases x.isNegative <;> rfl
  · obtain ⟨d, rfl, read⟩ := ofUnsigned?_of_written written x.isNegative
    obtain ⟨first, rest, rfl, digit⟩ := written.exists_eq_cons
    rw [text, ofText?_signText_append x (by rintro rfl; cases digit) (by rintro rfl; cases digit),
      read]
    -- the sign is all that tells the two zeros apart
    by_cases none : x.isZero
    · rw [if_pos none] at value
      rw [ofDecimal_of_value_eq_zero _ value, zero,
        ← of_decide_eq_true (p := x.magnitude = 0) none, ofMagnitude_magnitude]
      rfl
    · rw [if_neg none] at value
      rw [ofDecimal_eq_self finite none value]
      rfl

/-- The number that the text of a number is read as: the text of a NaN has neither its sign nor its
payload. -/
def asRead (x : Binary64) : Binary64 := if x.isNaN then quietNaN false else x

/-- A number is read back from its text. -/
theorem asRead_eq_self {x : Binary64} (number : x.isNaN = false) : x.asRead = x := by
  rw [asRead, number, if_neg (by decide)]

/-- What is read from a text has the same text. -/
theorem planText_asRead (x : Binary64) : x.asRead.planText = x.planText := by
  cases number : x.isNaN with
  | false => rw [asRead_eq_self number]
  | true =>
    rw [asRead, number, if_pos rfl, planText, planText, if_pos number]
    rfl

/-- What is read is read back. -/
theorem asRead_asRead (x : Binary64) : x.asRead.asRead = x.asRead := by
  cases number : x.isNaN with
  | false => rw [asRead_eq_self number, asRead_eq_self number]
  | true =>
    rw [asRead, asRead, number, if_pos rfl]
    rfl

/-- Every float literal is read as some number. -/
theorem ofText?_planText_eq (x : Binary64) : ofText? x.planText.toList = some x.asRead := by
  cases number : x.isNaN with
  | false => rw [asRead_eq_self number, ofText?_planText (by rw [number]; decide)]
  | true =>
    rw [planText, asRead, number, if_pos rfl, if_pos rfl]
    decide +kernel

/-- The characters of a literal. -/
theorem planText_chars (x : Binary64) {c : Char} (h : c ∈ x.planText.toList) :
    c.isDigit = true ∨ c ∈ ['-', '.', 'i', 'n', 'f', 'N', 'a'] := by
  have sign : c ∈ x.signText.toList → c ∈ ['-', '.', 'i', 'n', 'f', 'N', 'a'] := by
    unfold signText
    cases x.isNegative with
    | true => simp +contextual
    | false => simp
  by_cases number : x.isNaN
  · rw [planText, if_pos number] at h
    right
    revert h
    simp
    grind
  -- a number is an infinity, or its digits are written with a point
  rcases planText_form number with ⟨-, text⟩ | ⟨chars, q, -, text, written, -⟩
  · rw [text, List.mem_append] at h
    right
    rcases h with h | h
    · exact sign h
    · revert h
      simp
      grind
  · rw [text, List.mem_append] at h
    rcases h with h | h
    · exact Or.inr (sign h)
    · exact (written.isDigit_or_point h).imp_right fun point => by simp [point]

/-- Some character after the first one is no digit, so that a float literal is no integer. -/
theorem exists_planText_eq_cons (x : Binary64) :
    ∃ first rest c, x.planText.toList = first :: rest ∧ c ∈ rest ∧ c.isDigit = false := by
  by_cases number : x.isNaN
  · rw [planText, if_pos number]
    exact ⟨_, _, 'a', rfl, by decide, rfl⟩
  -- an infinity is a word, and any other number has a point
  rcases planText_form number with ⟨-, text⟩ | ⟨chars, q, -, text, written, -⟩
  · rw [text, signText]
    cases x.isNegative with
    | true => exact ⟨_, _, 'i', rfl, by decide, rfl⟩
    | false => exact ⟨_, _, 'n', rfl, by decide, rfl⟩
  · obtain ⟨whole, fraction, n, rfl, nonempty, -⟩ := written
    obtain ⟨first, others, rfl⟩ := List.exists_cons_of_ne_nil nonempty
    rw [text, signText]
    cases x.isNegative with
    | true => exact ⟨_, _, '.', rfl, by simp, rfl⟩
    | false => exact ⟨_, _, '.', rfl, by simp, rfl⟩

end Binary64

end PlanCompiler
