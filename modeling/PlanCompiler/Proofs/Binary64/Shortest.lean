import PlanCompiler.Proofs.Binary64.Rounding

/-!
# The shortest decimal reads back

`Binary64.shortest` looks for a decimal that the number covers. Seventeen digits always suffice:
on that grid the two decimals next to the number are less than a place of the number apart, so
that one of them is covered.

## Main definitions

* `Decimal.value`: the rational number that a decimal stands for.

## Main results

* `Binary64.reads_iff`: the test on integers is the rounding interval;
* `Decimal.pow_magnitude_le`: the grid of the first digit;
* `Binary64.exists_onGrid?`: seventeen digits suffice;
* `Binary64.covers_shortest`: the decimal that is found is covered.
-/

namespace PlanCompiler

namespace Decimal

/-- The rational number that a decimal stands for. -/
def value (d : Decimal) : ℚ := d.digits * 10 ^ d.exponent

/-- Dropping zeros at the end leaves the value. -/
theorem value_dropZeros (rounds : ℕ) (d : Decimal) : (d.dropZeros rounds).value = d.value := by
  induction rounds generalizing d with
  | zero => rfl
  | succ rounds ih =>
    rw [dropZeros]
    by_cases zero : d.digits ≠ 0 ∧ d.digits % 10 = 0
    · have digits : (d.digits : ℚ) = (d.digits / 10 : ℕ) * 10 := by
        exact_mod_cast (Nat.div_mul_cancel (Nat.dvd_of_mod_eq_zero zero.2)).symm
      rw [if_pos zero, ih, value, value, digits, zpow_add_one₀ (by norm_num)]
      ring
    · rw [if_neg zero]

/-- A number has as many digits as its size requires. -/
theorem pow_digitCount_le {n : ℕ} (positive : 0 < n) :
    10 ^ (digitCount n - 1) ≤ n ∧ n < 10 ^ digitCount n := by
  have some : 0 < digitCount n := Nat.length_toDigits_pos
  constructor
  · -- one digit less would not do, and zero has one digit
    rcases Nat.lt_or_ge 1 (digitCount n) with more | one
    · by_contra small
      have := (Nat.length_toDigits_le_iff (b := 10) (k := digitCount n - 1) (by decide)
        (by omega)).2 (Nat.lt_of_not_le small)
      unfold digitCount at *
      omega
    · rw [show digitCount n - 1 = 0 by omega]
      exact positive
  · exact (Nat.length_toDigits_le_iff (by decide) some).1 le_rfl

/-- The power of ten of the first digit is not above the ratio. -/
theorem pow_magnitude_le {numerator denominator : ℕ} (hn : 0 < numerator) (hd : 0 < denominator) :
    (10 : ℚ) ^ magnitude numerator denominator ≤ numerator / denominator := by
  have positive : (0 : ℚ) < denominator := by exact_mod_cast hd
  have positive' : (0 : ℚ) < numerator := by exact_mod_cast hn
  unfold magnitude
  by_cases large : denominator ≤ numerator
  · have least := (pow_digitCount_le (Nat.div_pos large hd)).1
    have some : 0 < digitCount (numerator / denominator) := Nat.length_toDigits_pos
    rw [if_pos large, le_div_iff₀ positive,
      show (digitCount (numerator / denominator) : ℤ) - 1 =
        (digitCount (numerator / denominator) - 1 : ℕ) by omega, zpow_natCast]
    have := (Nat.mul_le_mul_right denominator least).trans (Nat.div_mul_le_self _ _)
    exact_mod_cast this
  · -- a ratio below one is the inverse of one whose rounded up value is at least two
    rw [if_neg large]
    have ceiling : numerator < denominator + numerator - 1 := by omega
    have above : denominator ≤ numerator * ((denominator + numerator - 1) / numerator) := by
      have := Nat.div_add_mod (denominator + numerator - 1) numerator
      have := Nat.mod_lt (denominator + numerator - 1) hn
      omega
    have two : 2 ≤ (denominator + numerator - 1) / numerator :=
      (Nat.le_div_iff_mul_le hn).2 (by omega)
    generalize (denominator + numerator - 1) / numerator = c at above two ⊢
    have digits : c ≤ 10 ^ digitCount (c - 1) := by
      have := (pow_digitCount_le (n := c - 1) (by omega)).2
      omega
    have product : denominator ≤ numerator * 10 ^ digitCount (c - 1) :=
      above.trans (Nat.mul_le_mul_left _ digits)
    rw [zpow_neg, zpow_natCast, inv_eq_one_div, div_le_div_iff₀ (by positivity) positive, one_mul]
    exact_mod_cast product

end Decimal

namespace Binary64

variable {x : Binary64}

/-! ## Comparisons in a common unit -/

/-- Both integers stand for the rational numbers that are compared, up to one factor. -/
theorem cast_inCommonUnit (x : Binary64) (d : Decimal) (quarters : ℕ) :
    ∃ unit : ℚ, 0 < unit ∧ (x.inCommonUnit d quarters).1 = d.value * unit ∧
      (x.inCommonUnit d quarters).2 = quarters * 2 ^ (x.exponent - 2) * unit := by
  -- the factor clears the denominators of both numbers
  refine ⟨(Nat.pow 10 (-d.exponent).toNat : ℕ) * (Nat.pow 2 (-(x.exponent - 2)).toNat : ℕ),
    ?_, ?_, ?_⟩
  · have ten : 0 < Nat.pow 10 (-d.exponent).toNat := Nat.pow_pos (by decide)
    have two : 0 < Nat.pow 2 (-(x.exponent - 2)).toNat := Nat.two_pow_pos _
    positivity
  · have ten := cast_pow_toNat_div (b := 10) (by decide) d.exponent
    have nonzero : ((Nat.pow 10 (-d.exponent).toNat : ℕ) : ℚ) ≠ 0 := by
      exact_mod_cast (Nat.pow_pos (by decide)).ne'
    rw [div_eq_iff nonzero] at ten
    rw [inCommonUnit, Decimal.value]
    push_cast at ten ⊢
    rw [ten]
    ring
  · have two := cast_pow_toNat_div two_pos (x.exponent - 2)
    have nonzero : ((Nat.pow 2 (-(x.exponent - 2)).toNat : ℕ) : ℚ) ≠ 0 := by
      exact_mod_cast (Nat.two_pow_pos _).ne'
    rw [div_eq_iff nonzero] at two
    rw [inCommonUnit]
    push_cast at two ⊢
    rw [two]
    ring

/-- In a common unit, integers are compared as quarters of the last place from above. -/
theorem inCommonUnit_le_iff {d : Decimal} {quarters : ℕ} :
    (x.inCommonUnit d quarters).2 ≤ (x.inCommonUnit d quarters).1 ↔
      quarters * 2 ^ (x.exponent - 2) ≤ d.value := by
  obtain ⟨unit, positive, first, second⟩ := x.cast_inCommonUnit d quarters
  rw [← Nat.cast_le (α := ℚ), first, second, mul_le_mul_iff_left₀ positive]

/-- In a common unit, integers are compared as quarters of the last place from below. -/
theorem le_inCommonUnit_iff {d : Decimal} {quarters : ℕ} :
    (x.inCommonUnit d quarters).1 ≤ (x.inCommonUnit d quarters).2 ↔
      d.value ≤ quarters * 2 ^ (x.exponent - 2) := by
  obtain ⟨unit, positive, first, second⟩ := x.cast_inCommonUnit d quarters
  rw [← Nat.cast_le (α := ℚ), first, second, mul_le_mul_iff_left₀ positive]

/-- The test on integers decides whether the number covers a decimal. -/
theorem reads_iff {d : Decimal} : x.reads d = true ↔ x.Covers d.value := by
  have tests : x.reads d = true ↔
      if x.interval.closed then
        (x.inCommonUnit d x.interval.low).2 ≤ (x.inCommonUnit d x.interval.low).1 ∧
          (x.inCommonUnit d x.interval.high).1 ≤ (x.inCommonUnit d x.interval.high).2
      else
        (x.inCommonUnit d x.interval.low).2 < (x.inCommonUnit d x.interval.low).1 ∧
          (x.inCommonUnit d x.interval.high).1 < (x.inCommonUnit d x.interval.high).2 := by
    unfold reads
    dsimp only
    split <;> exact decide_eq_true_iff
  rw [tests]
  simp only [Covers, lt_iff_not_ge, inCommonUnit_le_iff, le_inCommonUnit_iff]

/-! ## Candidates -/

/-- The ratio of a number that is not zero has two positive parts. -/
theorem ratio_pos (nonzero : ¬ x.isZero) : 0 < x.ratio.1 ∧ 0 < x.ratio.2 :=
  ⟨Nat.mul_pos (significand_pos nonzero) (Nat.two_pow_pos _), Nat.two_pow_pos _⟩

/-- The ratio of a number is its size. -/
theorem cast_ratio_div (x : Binary64) : (x.ratio.1 : ℚ) / x.ratio.2 = x.size := by
  have two := cast_pow_toNat_div two_pos x.exponent
  rw [ratio, size, Nat.cast_mul, mul_div_assoc, two]
  push_cast
  rfl

/-- The ends of the interval are apart by more than seventeen digits can miss. -/
theorem interval_width (x : Binary64) (nonzero : ¬ x.isZero) :
    x.interval.low < 4 * x.significand ∧ 4 * x.significand < x.interval.high ∧
      x.interval.low * 10 ^ 16 + 4 * x.significand < x.interval.high * 10 ^ 16 := by
  have positive := significand_pos nonzero
  have bound := x.significand_lt
  unfold interval
  unfold leadingBit at *
  dsimp only
  split <;> omega

/-- The size of a number in quarters of its last place. -/
theorem size_eq_quarters (x : Binary64) :
    x.size = 4 * x.significand * 2 ^ (x.exponent - 2) := by
  rw [size, zpow_sub₀ two_ne_zero]
  ring

/-- What lies between the ends of the interval is covered. -/
theorem covers_of_lt {q : ℚ} (lower : x.interval.low * 2 ^ (x.exponent - 2) < q)
    (upper : q < x.interval.high * 2 ^ (x.exponent - 2)) : x.Covers q := by
  unfold Covers
  dsimp only
  split
  · exact ⟨lower.le, upper.le⟩
  · exact ⟨lower, upper⟩

/-- A number covers itself. -/
theorem covers_size (nonzero : ¬ x.isZero) : x.Covers x.size := by
  have ⟨left, right, _⟩ := x.interval_width nonzero
  have left' : (x.interval.low : ℚ) < 4 * x.significand := by exact_mod_cast left
  have right' : (4 * x.significand : ℚ) < x.interval.high := by exact_mod_cast right
  rw [size_eq_quarters]
  exact covers_of_lt (by gcongr) (by gcongr)

/-- The digits of the decimal on a grid that is next below a number. -/
def gridFloor (x : Binary64) (k : ℤ) : ℕ :=
  x.ratio.1 * Nat.pow 10 (-k).toNat / (x.ratio.2 * Nat.pow 10 k.toNat)

/-- The size of a number is between two points of the grid. -/
theorem gridFloor_spec (k : ℤ) (nonzero : ¬ x.isZero) :
    (x.gridFloor k : ℚ) * 10 ^ k ≤ x.size ∧ x.size < (x.gridFloor k + 1 : ℕ) * 10 ^ k := by
  have positive : 0 < x.ratio.2 * Nat.pow 10 k.toNat :=
    Nat.mul_pos (ratio_pos nonzero).2 (Nat.pow_pos (by decide))
  have positive' : (0 : ℚ) < (x.ratio.2 * Nat.pow 10 k.toNat : ℕ) := by exact_mod_cast positive
  have unit : (0 : ℚ) < 10 ^ k := by positivity
  have scaled := cast_scaled_div (b := 10) (by decide) x.ratio.1 x.ratio.2 k
  rw [cast_ratio_div, Nat.cast_ofNat] at scaled
  rw [← le_div_iff₀ unit, ← div_lt_iff₀ unit, ← scaled, le_div_iff₀ positive',
    div_lt_iff₀ positive']
  constructor
  · exact_mod_cast Nat.div_mul_le_self _ _
  · exact_mod_cast Nat.lt_mul_of_div_lt (Nat.lt_succ_self _) positive

/-- A candidate is only taken if it reads back. -/
theorem reads_of_onGrid? {tie : TieRule} {k : ℤ} {d : Decimal} (h : x.onGrid? tie k = some d) :
    x.reads d = true := by
  unfold onGrid? at h
  dsimp only at h
  split at h <;> grind

/-- A candidate that reads back is taken, or the other one is. -/
theorem exists_onGrid?_of_reads {tie : TieRule} {k : ℤ}
    (h : x.reads ⟨x.gridFloor k, k⟩ = true ∨ x.reads ⟨x.gridFloor k + 1, k⟩ = true) :
    ∃ d, x.onGrid? tie k = some d := by
  unfold gridFloor at h
  unfold onGrid?
  dsimp only
  -- which of the two candidates read back
  split
  · split
    · exact ⟨_, rfl⟩
    · split
      · exact ⟨_, rfl⟩
      · cases tie with
        | up => exact ⟨_, rfl⟩
        | even => dsimp only; split <;> exact ⟨_, rfl⟩
  · exact ⟨_, rfl⟩
  · exact ⟨_, rfl⟩
  · rename_i first second
    rw [first, second] at h
    exact absurd h (by decide)

/-- Of the decimals next to the number on a grid of seventeen digits one is covered. -/
theorem exists_onGrid? (tie : TieRule) {k : ℤ} (nonzero : ¬ x.isZero)
    (fine : (10 : ℚ) ^ k * 10 ^ 16 ≤ x.size) : ∃ d, x.onGrid? tie k = some d := by
  apply exists_onGrid?_of_reads
  rw [reads_iff, reads_iff, Decimal.value, Decimal.value]
  have ⟨below, above⟩ := gridFloor_spec k nonzero
  have ⟨left, right, width⟩ := x.interval_width nonzero
  have unit : (0 : ℚ) < 2 ^ (x.exponent - 2) := by positivity
  have size := x.size_eq_quarters
  have left' : (x.interval.low : ℚ) < 4 * x.significand := by exact_mod_cast left
  have right' : (4 * x.significand : ℚ) < x.interval.high := by exact_mod_cast right
  have width' : (x.interval.low * 10 ^ 16 + 4 * x.significand : ℚ) < x.interval.high * 10 ^ 16 := by
    exact_mod_cast width
  by_contra neither
  rw [not_or] at neither
  -- otherwise the whole interval would lie between two neighbours of the grid
  have low : (x.gridFloor k : ℚ) * 10 ^ k ≤ x.interval.low * 2 ^ (x.exponent - 2) := by
    by_contra inside
    refine neither.1 (covers_of_lt (not_le.1 inside) (below.trans_lt ?_))
    rw [size]
    gcongr
  have high : (x.interval.high : ℚ) * 2 ^ (x.exponent - 2) ≤ (x.gridFloor k + 1 : ℕ) * 10 ^ k := by
    by_contra inside
    refine neither.2 (covers_of_lt (lt_trans ?_ above) (not_le.1 inside))
    rw [size]
    gcongr
  rw [size] at fine
  push_cast at high
  have scaled := mul_lt_mul_of_pos_right width' unit
  linarith

/-- The shortest decimal is covered. -/
theorem covers_shortest (tie : TieRule) (nonzero : ¬ x.isZero) :
    x.Covers (x.shortest tie).value := by
  have ⟨numerator, denominator⟩ := ratio_pos nonzero
  -- seventeen digits are fine enough, counted from the first digit of the number
  have first := Decimal.pow_magnitude_le numerator denominator
  rw [cast_ratio_div] at first
  unfold shortest
  dsimp only
  rw [Decimal.value_dropZeros, ← reads_iff]
  generalize Decimal.magnitude x.ratio.1 x.ratio.2 = top at first ⊢
  -- the search ends at seventeen digits at the latest
  obtain ⟨last, found⟩ : ∃ d, x.onGrid? tie (top - (16 : ℕ)) = some d := by
    refine exists_onGrid? tie nonzero ?_
    rw [zpow_sub₀ (by norm_num), zpow_natCast, div_mul_cancel₀ _ (by norm_num)]
    exact first
  cases search : (List.range 17).findSome? fun more : ℕ => x.onGrid? tie (top - more) with
  | none =>
    rw [List.findSome?_eq_none_iff] at search
    rw [search 16 (by decide)] at found
    cases found
  | some d =>
    obtain ⟨more, -, candidate⟩ := List.exists_of_findSome?_eq_some search
    exact reads_of_onGrid? candidate

end Binary64

end PlanCompiler
