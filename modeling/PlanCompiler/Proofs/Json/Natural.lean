import Mathlib.Data.List.TakeWhile
import PlanCompiler.Json.Number
import PlanCompiler.Proofs.Numeral

/-!
# Natural numbers of JSON

A number is natural if it is written in decimal without a leading zero, is below 2^64 and does not
go on as a float. Everything else that is a number is negative or a float.

## Main definitions

* `Json.EndsNumber`: a number in front of a text is at its end there.

## Main results

* `Json.absorb_eq_iff`: when all digits of a number are collected;
* `Json.number_eq_natural_iff`: what is read as a natural number.
-/

namespace PlanCompiler.Json

variable {text rest : List Char} {n : Nat} {isNegative : Bool}

/-- A number in front of the text does not go on in it. -/
def EndsNumber (rest : List Char) : Prop :=
  ∀ c ∈ rest.head?, c.isDigit = false ∧ c ≠ '.' ∧ c ≠ 'e' ∧ c ≠ 'E'

/-- A number may end at the end of the text. -/
theorem endsNumber_nil : EndsNumber [] := by
  intro c first
  cases first

/-- All digits are collected exactly if the number stays below 2^64. -/
theorem absorb_eq_iff {digits : List Char} {start : Nat} (small : start < UInt64.size) :
    absorb start digits = (n, digits.length) ↔
      Nat.ofDigitChars 10 digits start = n ∧ n < UInt64.size := by
  induction digits generalizing start with
  | nil =>
    rw [absorb, Nat.ofDigitChars_nil, List.length_nil, Prod.mk.injEq, and_iff_left rfl]
    exact (and_iff_left_of_imp fun same => same ▸ small).symm
  | cons digit others ih =>
    rw [absorb, Nat.ofDigitChars_cons, List.length_cons]
    split
    · rename_i fits
      rw [← ih fits]
      simp only [Nat.add_right_cancel_iff, Prod.ext_iff]
    · rename_i full
      refine iff_of_false (fun found => ?_) fun ⟨value, below⟩ => full ?_
      · exact absurd (congrArg Prod.snd found) (Nat.zero_ne_add_one _)
      · -- further digits only make the number larger
        rw [Nat.ofDigitChars_eq_ofDigitChars_zero] at value
        have grown := Nat.le_mul_of_pos_left (10 * start + (digit.toNat - '0'.toNat))
          (Nat.pow_pos (n := others.length) (show 0 < 10 by decide))
        omega

/-- A number with a fraction is read as no natural number. -/
theorem decimalNumber_ne_natural {digits : Nat} {places : Int} :
    decimalNumber isNegative digits places text ≠ .ok (.natural n, rest) := by
  unfold decimalNumber
  split <;> simp

/-- A number with an exponent is read as no natural number. -/
theorem scaledNumber_ne_natural {digits : Nat} {places : Int} :
    scaledNumber isNegative digits places text ≠ .ok (.natural n, rest) := by
  unfold scaledNumber
  split
  · intro found
    obtain ⟨⟨more, after⟩, -, found⟩ := bind_eq_ok_iff.1 found
    exact decimalNumber_ne_natural found
  · intro found
    obtain ⟨⟨more, after⟩, -, found⟩ := bind_eq_ok_iff.1 found
    exact decimalNumber_ne_natural found
  · exact decimalNumber_ne_natural

/-- A number ends behind its digits if neither a fraction nor an exponent comes there. -/
theorem endsNumber_dropWhile (point : ∀ others, text.dropWhile Char.isDigit ≠ '.' :: others)
    (small : ∀ others, text.dropWhile Char.isDigit ≠ 'e' :: others)
    (large : ∀ others, text.dropWhile Char.isDigit ≠ 'E' :: others) :
    EndsNumber (text.dropWhile Char.isDigit) := by
  intro c first
  obtain ⟨others, behind⟩ := List.head?_eq_some_iff.1 first
  have digit := List.head?_dropWhile_not Char.isDigit text
  rw [behind] at digit
  refine ⟨digit, ?_, ?_, ?_⟩ <;> rintro rfl
  · exact point _ behind
  · exact small _ behind
  · exact large _ behind

/-- A natural number is read from digits that are all collected and end the number. -/
theorem absorb_of_number_eq_natural (found : number isNegative text = .ok (.natural n, rest)) :
    isNegative = false ∧ text.dropWhile Char.isDigit = rest ∧ EndsNumber rest ∧
      ¬ (text.takeWhile Char.isDigit = [] ∨
        (text.takeWhile Char.isDigit).head? = some '0' ∧
          1 < (text.takeWhile Char.isDigit).length) ∧
      absorb 0 (text.takeWhile Char.isDigit) = (n, (text.takeWhile Char.isDigit).length) := by
  unfold number at found
  dsimp only at found
  split at found
  · cases found
  split at found
  · cases found
  rename_i written
  -- a fraction or an exponent makes a float, also one of a whole number
  split at found
  case h_1 =>
    split at found
    · cases found
    split at found
    · cases found
    exact absurd found scaledNumber_ne_natural
  case h_2 => exact absurd found scaledNumber_ne_natural
  case h_3 => exact absurd found scaledNumber_ne_natural
  case h_4 point small large =>
    split at found
    · exact absurd found decimalNumber_ne_natural
    rename_i all
    split at found
    · rename_i positive
      obtain ⟨value, stop⟩ := Prod.mk.inj (Except.ok.inj found)
      have ends := endsNumber_dropWhile point small large
      exact ⟨by simpa using positive, stop, stop ▸ ends, written,
        Prod.ext (Number.natural.inj value) (by omega)⟩
    · split at found <;> cases found

/-- Digits that are all collected and end the number are read as a natural number. -/
theorem number_of_absorb (ends : EndsNumber (text.dropWhile Char.isDigit))
    (written : ¬ (text.takeWhile Char.isDigit = [] ∨
      (text.takeWhile Char.isDigit).head? = some '0' ∧ 1 < (text.takeWhile Char.isDigit).length))
    (all : absorb 0 (text.takeWhile Char.isDigit) = (n, (text.takeWhile Char.isDigit).length)) :
    number false text = .ok (.natural n, text.dropWhile Char.isDigit) := by
  have nonempty : text ≠ [] := by
    rintro rfl
    exact written (.inl rfl)
  unfold number
  dsimp only
  rw [if_neg nonempty, if_neg written, all]
  -- nothing behind the digits starts a fraction or an exponent
  split
  · rename_i behind
    exact absurd rfl (ends '.' (by rw [behind]; rfl)).2.1
  · rename_i behind
    exact absurd rfl (ends 'e' (by rw [behind]; rfl)).2.2.1
  · rename_i behind
    exact absurd rfl (ends 'E' (by rw [behind]; rfl)).2.2.2
  · rw [if_neg (by simp), if_pos (by decide)]

/-- The digits in front of what ends a number. -/
theorem takeWhile_toDigits_append (ends : EndsNumber rest) :
    (Nat.toDigits 10 n ++ rest).takeWhile Char.isDigit = Nat.toDigits 10 n ∧
      (Nat.toDigits 10 n ++ rest).dropWhile Char.isDigit = rest := by
  have digits : ∀ c ∈ Nat.toDigits 10 n, c.isDigit = true :=
    fun _ => Numeral.isDigit_of_mem_toDigits
  rw [List.takeWhile_append_of_pos digits, List.dropWhile_append_of_pos digits]
  cases rest with
  | nil => simp
  | cons c rest =>
    have stops : ¬ c.isDigit = true := by simp [(ends c rfl).1]
    rw [List.takeWhile_cons_of_neg stops, List.dropWhile_cons_of_neg stops, List.append_nil]
    exact ⟨rfl, rfl⟩

/-- Natural numbers are written in decimal without a leading zero. -/
theorem number_eq_natural_iff :
    number isNegative text = .ok (.natural n, rest) ↔
      isNegative = false ∧ n < UInt64.size ∧ text = Nat.toDigits 10 n ++ rest ∧
        EndsNumber rest := by
  constructor
  · intro found
    obtain ⟨positive, rfl, ends, written, all⟩ := absorb_of_number_eq_natural found
    obtain ⟨value, small⟩ := (absorb_eq_iff (by decide)).1 all
    obtain ⟨nonempty, noZero⟩ := not_or.1 written
    have read : Numeral.natural? (text.takeWhile Char.isDigit) = some n :=
      Numeral.natural?_eq_some_iff.2 ⟨nonempty, fun _ => List.mem_takeWhile_imp, value⟩
    refine ⟨positive, small, ?_, ends⟩
    rw [← Numeral.eq_toDigits_iff.2 ⟨read, noZero⟩, List.takeWhile_append_dropWhile]
  · rintro ⟨rfl, small, rfl, ends⟩
    obtain ⟨taken, dropped⟩ := takeWhile_toDigits_append (n := n) ends
    -- the digits are those of the number, so all of them are collected
    have read := @number_of_absorb (Nat.toDigits 10 n ++ rest) n
    rw [taken, dropped] at read
    exact read ends (not_or.2 ⟨Nat.toDigits_ne_nil, (Numeral.eq_toDigits_iff.1 rfl).2⟩)
      ((absorb_eq_iff (by decide)).2 ⟨Nat.ofDigitChars_ten_toDigits, small⟩)

end PlanCompiler.Json
