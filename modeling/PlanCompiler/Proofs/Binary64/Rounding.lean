import Mathlib.Algebra.Order.Field.Power
import Mathlib.Data.Nat.Log
import Mathlib.Tactic.FieldSimp
import Mathlib.Tactic.Linarith
import Mathlib.Tactic.Positivity
import Mathlib.Tactic.Ring
import PlanCompiler.Binary64.Shortest

/-!
# Rounding to the nearest number

A ratio is rounded to a finite number exactly if it lies in the rounding interval of the number.
Only one direction is needed here: every ratio of the interval is rounded to the number.

## Main definitions

* `Binary64.size`: the rational number that a finite number stands for, up to its sign;
* `Binary64.Covers`: a rational number lies in the rounding interval of a finite number;
* `Binary64.unitExponent`, `Binary64.halfEven`: the two steps of rounding.

## Main results

* `Binary64.magnitude_eq`: a magnitude as exponent and significand;
* `Binary64.unitExponent_spec`: the exponent that gives a quotient 53 bits;
* `Binary64.ofRatio_eq_self`: a ratio that a number covers is rounded to it.
-/

namespace PlanCompiler.Binary64

variable {x : Binary64}

/-! ## Sign, exponent and significand -/

/-- A number is its sign and its magnitude. -/
theorem ofMagnitude_magnitude (x : Binary64) : ofMagnitude x.isNegative x.magnitude = x := by
  have bound : x.bits.toNat < 2 * signBit := x.bits.toNat_lt
  have bits : (if x.isNegative then signBit else 0) + x.magnitude = x.bits.toNat := by
    rw [magnitude, isNegative]
    by_cases negative : signBit ≤ x.bits.toNat
    · rw [if_pos (decide_eq_true negative), Nat.mod_eq_sub_mod negative,
        Nat.mod_eq_of_lt (by omega)]
      omega
    · rw [if_neg (by simpa using negative), Nat.mod_eq_of_lt (by omega), Nat.zero_add]
  rw [ofMagnitude, bits, UInt64.ofNat_toNat]

/-- A magnitude counts the significands of the lower exponents and then its own. -/
theorem magnitude_eq (x : Binary64) :
    x.magnitude = (x.exponent + 1074).toNat * leadingBit + x.significand := by
  have split := Nat.div_add_mod x.magnitude leadingBit
  unfold exponent significand
  by_cases subnormal : x.biasedExponent = 0
  · rw [if_pos subnormal, subnormal]
    simp
  · have field :
        ((max x.biasedExponent 1 : Nat) - 1075 + 1074 : Int).toNat + 1 = x.biasedExponent := by
      omega
    rw [if_neg subnormal, ← Nat.add_assoc, ← Nat.succ_mul, Nat.succ_eq_add_one, field, Nat.mul_comm,
      biasedExponent, split]

/-- A significand is below twice the leading bit. -/
theorem significand_lt (x : Binary64) : x.significand < 2 * leadingBit := by
  have rest : x.magnitude % leadingBit < leadingBit := Nat.mod_lt _ (by decide)
  unfold significand
  split
  · rename_i subnormal
    rw [biasedExponent, Nat.div_eq_zero_iff_lt (by decide)] at subnormal
    omega
  · omega

/-- No exponent is below that of the least number. -/
theorem le_exponent (x : Binary64) : -1074 ≤ x.exponent := by
  unfold exponent
  omega

/-- Above the lowest exponent the leading bit is set. -/
theorem leadingBit_le_significand (h : -1074 < x.exponent) : leadingBit ≤ x.significand := by
  unfold exponent at h
  rw [significand, if_neg (by omega)]
  omega

/-- The exponents of finite numbers are bounded. -/
theorem exponent_lt (finite : x.isFinite) : x.exponent < 972 := by
  have upper : x.magnitude < 2047 * leadingBit := of_decide_eq_true finite
  have field : x.biasedExponent < 2047 :=
    Nat.div_lt_of_lt_mul (by rw [Nat.mul_comm]; exact upper)
  unfold exponent
  omega

/-- A number that is not zero has a positive significand. -/
theorem significand_pos (nonzero : ¬ x.isZero) : 0 < x.significand := by
  rw [Nat.pos_iff_ne_zero]
  intro none
  have lowest : x.exponent = -1074 := by
    have := x.le_exponent
    by_contra other
    have := leadingBit_le_significand (x := x) (by omega)
    rw [none] at this
    exact absurd this (by decide)
  exact nonzero (decide_eq_true (by rw [magnitude_eq, lowest, none]; rfl))

/-- The rational number that a finite number stands for, up to its sign. -/
def size (x : Binary64) : ℚ := x.significand * 2 ^ x.exponent

/-- A rational number lies in the rounding interval of a finite number. -/
def Covers (x : Binary64) (q : ℚ) : Prop :=
  let i := x.interval
  let quarter : ℚ := 2 ^ (x.exponent - 2)
  if i.closed then i.low * quarter ≤ q ∧ q ≤ i.high * quarter
  else i.low * quarter < q ∧ q < i.high * quarter

/-! ## Powers as ratios -/

/-- A power is the quotient of two natural powers, one of which is one. -/
theorem cast_pow_toNat_div {b : ℕ} (positive : 0 < b) (e : ℤ) :
    (Nat.pow b e.toNat : ℚ) / (Nat.pow b (-e).toNat : ℕ) = (b : ℚ) ^ e := by
  have base : (b : ℚ) ≠ 0 := by exact_mod_cast positive.ne'
  rcases le_total 0 e with sign | sign
  · lift e to ℕ using sign
    simp
  · obtain ⟨n, rfl⟩ : ∃ n : ℕ, e = -n := ⟨(-e).toNat, by omega⟩
    simp

/-! ## The steps of rounding -/

/-- The exponent at which a ratio is rounded to an integer. -/
def unitExponent (numerator denominator : ℕ) : ℤ :=
  let low := max ((numerator.log2 : ℤ) - denominator.log2 - 53) (-1074)
  if numerator * Nat.pow 2 (-low).toNat / (denominator * Nat.pow 2 low.toNat) < 2 * leadingBit
  then low
  else low + 1

/-- The integer nearest to a quotient, the even one of two. -/
def halfEven (numerator denominator : ℕ) : ℕ :=
  let floor := numerator / denominator
  let rest := numerator % denominator
  if 2 * rest < denominator ∨ (2 * rest = denominator ∧ floor % 2 = 0) then floor else floor + 1

/-- How a ratio that is not zero is rounded. -/
theorem ofRatio_eq {numerator denominator : ℕ} (nonzero : numerator ≠ 0) (negative : Bool) :
    ofRatio negative numerator denominator =
      let e := unitExponent numerator denominator
      ofMagnitude negative (min ((e + 1074).toNat * leadingBit +
        halfEven (numerator * Nat.pow 2 (-e).toNat) (denominator * Nat.pow 2 e.toNat))
          infinityMagnitude) := by
  rw [ofRatio, if_neg nonzero]
  rfl

/-- The integer nearest to a quotient is the one that lies within a half of it. -/
theorem halfEven_eq {numerator denominator m : ℕ} (positive : 0 < denominator)
    (lower : 2 * m * denominator ≤ 2 * numerator + denominator)
    (upper : 2 * numerator ≤ 2 * m * denominator + denominator)
    (tie : 2 * m * denominator = 2 * numerator + denominator ∨
      2 * numerator = 2 * m * denominator + denominator → m % 2 = 0) :
    halfEven numerator denominator = m := by
  obtain ⟨floor, rest, rfl, small, quotient, remainder⟩ : ∃ floor rest,
      numerator = denominator * floor + rest ∧ rest < denominator ∧
        numerator / denominator = floor ∧ numerator % denominator = rest :=
    ⟨_, _, (Nat.div_add_mod _ _).symm, Nat.mod_lt _ positive, rfl, rfl⟩
  have high : floor ≤ m := by
    by_contra beyond
    have := Nat.mul_le_mul_left denominator (show m + 1 ≤ floor by omega)
    nlinarith
  have low : m ≤ floor + 1 := by
    by_contra beyond
    have := Nat.mul_le_mul_left denominator (show floor + 2 ≤ m by omega)
    nlinarith
  unfold halfEven
  rw [quotient, remainder]
  rcases Nat.eq_or_lt_of_le high with rfl | above
  · -- the quotient is rounded down
    have half : 2 * rest ≤ denominator := by nlinarith
    rw [if_pos]
    rcases Nat.eq_or_lt_of_le half with equal | less
    · exact Or.inr ⟨equal, tie (Or.inr (by rw [← equal]; ring))⟩
    · exact Or.inl less
  · -- the quotient is rounded up
    obtain rfl : m = floor + 1 := by omega
    have half : denominator ≤ 2 * rest := by nlinarith
    rw [if_neg]
    rintro (less | ⟨equal, even⟩)
    · omega
    · have := tie (Or.inl (by rw [← equal]; ring))
      omega

/-- A ratio in units of a power, as a ratio of natural numbers. -/
theorem cast_scaled_div {b : ℕ} (positive : 0 < b) (numerator denominator : ℕ) (e : ℤ) :
    ((numerator * Nat.pow b (-e).toNat : ℕ) : ℚ) / (denominator * Nat.pow b e.toNat : ℕ) =
      numerator / denominator / (b : ℚ) ^ e := by
  have up : ((Nat.pow b e.toNat : ℕ) : ℚ) ≠ 0 := by exact_mod_cast (Nat.pow_pos positive).ne'
  have down : ((Nat.pow b (-e).toNat : ℕ) : ℚ) ≠ 0 := by exact_mod_cast (Nat.pow_pos positive).ne'
  rw [← cast_pow_toNat_div positive e, Nat.cast_mul, Nat.cast_mul]
  field_simp

/-- Bounds of a ratio by the logarithms of its terms. -/
theorem div_two_pow_log2_sub {numerator denominator : ℕ} (hn : numerator ≠ 0)
    (hd : denominator ≠ 0) :
    let q : ℚ := numerator / denominator
    let e : ℤ := (numerator.log2 : ℤ) - denominator.log2 - 53
    leadingBit ≤ q / 2 ^ e ∧ q / 2 ^ e < 4 * leadingBit := by
  intro q e
  have numeratorLow : (2 : ℚ) ^ numerator.log2 ≤ numerator := by
    exact_mod_cast Nat.log2_self_le hn
  have numeratorHigh : (numerator : ℚ) < 2 ^ (numerator.log2 + 1) := by
    exact_mod_cast Nat.lt_log2_self
  have denominatorLow : (2 : ℚ) ^ denominator.log2 ≤ denominator := by
    exact_mod_cast Nat.log2_self_le hd
  have denominatorHigh : (denominator : ℚ) < 2 ^ (denominator.log2 + 1) := by
    exact_mod_cast Nat.lt_log2_self
  have positive : (0 : ℚ) < denominator := by exact_mod_cast Nat.pos_of_ne_zero hd
  have unit : (2 : ℚ) ^ e = 2 ^ numerator.log2 / 2 ^ denominator.log2 / 2 ^ 53 := by
    rw [show e = (numerator.log2 : ℤ) - denominator.log2 - (53 : ℕ) from rfl, zpow_sub₀ two_ne_zero,
      zpow_sub₀ two_ne_zero, zpow_natCast, zpow_natCast, zpow_natCast]
  -- both bounds are products of one bound for each term
  have quotient : q / 2 ^ e = numerator * 2 ^ denominator.log2 * 2 ^ 53 /
      (denominator * 2 ^ numerator.log2) := by
    rw [unit, show q = numerator / denominator from rfl]
    field_simp
  rw [pow_succ] at numeratorHigh denominatorHigh
  rw [quotient, div_lt_iff₀ (by positivity), le_div_iff₀ (by positivity)]
  constructor
  · calc (leadingBit : ℚ) * (denominator * 2 ^ numerator.log2)
        ≤ leadingBit * (2 ^ denominator.log2 * 2 * numerator) := by gcongr
      _ = numerator * 2 ^ denominator.log2 * 2 ^ 53 := by norm_num [leadingBit]; ring
  · calc (numerator : ℚ) * 2 ^ denominator.log2 * 2 ^ 53
        < 2 ^ numerator.log2 * 2 * (2 : ℚ) ^ denominator.log2 * 2 ^ 53 := by gcongr
      _ ≤ 2 ^ numerator.log2 * 2 * (denominator : ℚ) * 2 ^ 53 := by gcongr
      _ = (4 * leadingBit : ℚ) * ((denominator : ℚ) * 2 ^ numerator.log2) := by
        norm_num [leadingBit]
        ring

/-- The exponent leaves the quotient below the least integer of 54 bits, and at 53 bits unless
it is the lowest one. -/
theorem unitExponent_spec {numerator denominator : ℕ} (hn : numerator ≠ 0) (hd : denominator ≠ 0) :
    let e := unitExponent numerator denominator
    let q : ℚ := numerator / denominator
    q / 2 ^ e < 2 * leadingBit ∧ -1074 ≤ e ∧ (-1074 < e → leadingBit ≤ q / 2 ^ e) := by
  intro e q
  have ⟨least, most⟩ := div_two_pow_log2_sub hn hd
  have nonneg : 0 ≤ q := by positivity
  set estimate : ℤ := (numerator.log2 : ℤ) - denominator.log2 - 53
  let low := max estimate (-1074)
  -- the test on integers is one on the quotient
  have fits : numerator * Nat.pow 2 (-low).toNat / (denominator * Nat.pow 2 low.toNat) <
      2 * leadingBit ↔ q / 2 ^ low < 2 * leadingBit := by
    have positive : 0 < denominator * Nat.pow 2 low.toNat :=
      Nat.mul_pos (Nat.pos_of_ne_zero hd) (Nat.two_pow_pos _)
    have scaled := cast_scaled_div two_pos numerator denominator low
    rw [Nat.cast_ofNat] at scaled
    rw [Nat.div_lt_iff_lt_mul positive, ← scaled, div_lt_iff₀ (by exact_mod_cast positive)]
    exact_mod_cast Iff.rfl
  have chosen : e = if numerator * Nat.pow 2 (-low).toNat / (denominator * Nat.pow 2 low.toNat) <
      2 * leadingBit then low else low + 1 := rfl
  rw [chosen]
  by_cases small : q / 2 ^ low < 2 * leadingBit
  · rw [if_pos (fits.2 small)]
    refine ⟨small, le_max_right _ _, fun above => ?_⟩
    rw [show low = estimate by omega]
    exact least
  · -- the estimate was too low by one, and it was not cut off at the lowest exponent
    have whole : low = estimate := by
      by_contra cut
      have least' : q / 2 ^ low ≤ q / 2 ^ (estimate + 1) := by
        gcongr
        · norm_num
        · omega
      rw [zpow_add_one₀ two_ne_zero, ← div_div] at least'
      exact small (by linarith)
    have next : q / 2 ^ (low + 1) = q / 2 ^ low / 2 := by
      rw [zpow_add_one₀ two_ne_zero, ← div_div]
    rw [if_neg (mt fits.1 small), next]
    rw [← whole] at most
    exact ⟨by linarith, by omega, fun _ => by linarith⟩

/-- The integer nearest to a ratio in units of a power of two. -/
theorem halfEven_scaled (numerator m : ℕ) {denominator : ℕ} {e : ℤ} (hd : denominator ≠ 0)
    (lower : (m : ℚ) ≤ numerator / denominator / 2 ^ e + 1 / 2)
    (upper : (numerator : ℚ) / denominator / 2 ^ e ≤ m + 1 / 2)
    (tie : (m : ℚ) = numerator / denominator / 2 ^ e + 1 / 2 ∨
      (numerator : ℚ) / denominator / 2 ^ e = m + 1 / 2 → m % 2 = 0) :
    halfEven (numerator * Nat.pow 2 (-e).toNat) (denominator * Nat.pow 2 e.toNat) = m := by
  have scaled := cast_scaled_div two_pos numerator denominator e
  rw [Nat.cast_ofNat] at scaled
  rw [← scaled] at lower upper tie
  clear scaled
  generalize numerator * Nat.pow 2 (-e).toNat = n at lower upper tie ⊢
  have positive : 0 < denominator * Nat.pow 2 e.toNat :=
    Nat.mul_pos (Nat.pos_of_ne_zero hd) (Nat.two_pow_pos _)
  generalize denominator * Nat.pow 2 e.toNat = d at lower upper tie positive ⊢
  have positive' : (0 : ℚ) < d := by exact_mod_cast positive
  have quotient : (n : ℚ) = n / d * d := by field_simp
  -- twice the denominator clears the halves
  have whole {a b : ℚ} (h : a ≤ b) : a * (2 * d) ≤ b * (2 * d) := by gcongr
  refine halfEven_eq positive ?_ ?_ ?_
  · have : (2 * m * d : ℚ) ≤ 2 * n + d := by linarith [whole lower]
    exact_mod_cast this
  · have : (2 * n : ℚ) ≤ 2 * m * d + d := by linarith [whole upper]
    exact_mod_cast this
  · intro ends
    apply tie
    field_simp
    rcases ends with equal | equal
    · left
      have : (2 * m * d : ℚ) = 2 * n + d := by exact_mod_cast equal
      linarith
    · right
      have : (2 * n : ℚ) = 2 * m * d + d := by exact_mod_cast equal
      linarith

/-! ## Rounding intervals -/

/-- The lower end is half a place below the number, or less. -/
theorem le_interval_low (x : Binary64) : 4 * x.significand ≤ x.interval.low + 2 := by
  unfold interval
  dsimp only
  split <;> omega

/-- Below a power of two the lower end is a quarter of a place away. -/
theorem interval_low_of_leadingBit (boundary : x.significand = leadingBit)
    (above : -1074 < x.exponent) : 4 * x.significand = x.interval.low + 1 := by
  unfold exponent at above
  unfold interval
  dsimp only
  rw [if_pos ⟨boundary, by omega⟩, boundary]
  decide

/-- The rounding interval in places of the number. -/
theorem Covers.bounds {q : ℚ} (h : x.Covers q) :
    x.interval.low ≤ 4 * (q / 2 ^ x.exponent) ∧
      4 * (q / 2 ^ x.exponent) ≤ 4 * x.significand + 2 ∧
      (x.interval.low = 4 * (q / 2 ^ x.exponent) ∨
        4 * (q / 2 ^ x.exponent) = 4 * x.significand + 2 → x.significand % 2 = 0) := by
  have unit : (0 : ℚ) < 2 ^ x.exponent := by positivity
  have quarter : (2 : ℚ) ^ (x.exponent - 2) = 2 ^ x.exponent / 4 := by
    rw [zpow_sub₀ two_ne_zero]
    norm_num
  have places : q = 4 * (q / 2 ^ x.exponent) * (2 ^ x.exponent / 4) := by field_simp
  have high : (x.interval.high : ℚ) = 4 * x.significand + 2 := by
    unfold interval
    push_cast
    rfl
  unfold Covers at h
  dsimp only at h
  rw [quarter, high] at h
  generalize 4 * (q / 2 ^ x.exponent) = y at places ⊢
  subst places
  have positive : (0 : ℚ) < 2 ^ x.exponent / 4 := by positivity
  -- the ends of the interval belong to it exactly if the significand is even
  by_cases even : x.significand % 2 = 0
  · rw [if_pos (show x.interval.closed = true from decide_eq_true even),
      mul_le_mul_iff_left₀ positive,
      mul_le_mul_iff_left₀ positive] at h
    exact ⟨h.1, h.2, fun _ => even⟩
  · rw [if_neg (by simpa [interval] using even), mul_lt_mul_iff_left₀ positive,
      mul_lt_mul_iff_left₀ positive] at h
    refine ⟨h.1.le, h.2.le, ?_⟩
    rintro (equal | equal)
    · exact absurd equal h.1.ne
    · exact absurd equal h.2.ne

/-- A ratio that a number covers is rounded at a lower exponent only if the number is a power of
two, and then at the next lower one. -/
theorem boundary_of_carry {e : ℤ} {y : ℚ} (below : e < x.exponent) (lowest : -1074 ≤ e)
    (lower : x.interval.low ≤ 4 * y) (fits : y * 2 ^ (x.exponent - e) < 2 * leadingBit) :
    e = x.exponent - 1 ∧ x.significand = leadingBit := by
  have normal := leadingBit_le_significand (lowest.trans_lt below)
  have least : (leadingBit : ℚ) ≤ x.significand := by exact_mod_cast normal
  have low : (4 * x.significand : ℚ) ≤ x.interval.low + 2 := by exact_mod_cast x.le_interval_low
  have one_le : (1 : ℚ) ≤ leadingBit := by norm_num [leadingBit]
  -- four times the quotient would leave no room below the bound
  obtain rfl : e = x.exponent - 1 := by
    by_contra further
    have : (2 : ℚ) ^ (2 : ℤ) ≤ 2 ^ (x.exponent - e) := by
      gcongr
      omega
    norm_num at this
    nlinarith
  rw [show x.exponent - (x.exponent - 1) = 1 by omega, zpow_one] at fits
  have : (x.significand : ℚ) < leadingBit + 1 := by linarith
  have : x.significand < leadingBit + 1 := by exact_mod_cast this
  exact ⟨rfl, by omega⟩

/-- A ratio that a number covers is rounded to it. -/
theorem ofRatio_eq_self {numerator denominator : ℕ} (finite : x.isFinite) (hn : numerator ≠ 0)
    (hd : denominator ≠ 0) (covers : x.Covers (numerator / denominator)) :
    ofRatio x.isNegative numerator denominator = x := by
  have bound : x.magnitude < infinityMagnitude := of_decide_eq_true finite
  suffices rounded : (unitExponent numerator denominator + 1074).toNat * leadingBit +
      halfEven (numerator * Nat.pow 2 (-(unitExponent numerator denominator)).toNat)
        (denominator * Nat.pow 2 (unitExponent numerator denominator).toNat) = x.magnitude by
    rw [ofRatio_eq hn]
    dsimp only
    rw [rounded, Nat.min_eq_left bound.le, ofMagnitude_magnitude]
  have ⟨fits, lowest, normal⟩ := unitExponent_spec hn hd
  have ⟨lower, upper, tie⟩ := covers.bounds
  have low : (4 * x.significand : ℚ) ≤ x.interval.low + 2 := by exact_mod_cast x.le_interval_low
  have high : (x.significand : ℚ) + 1 ≤ 2 * leadingBit := by exact_mod_cast x.significand_lt
  have one_le : (1 : ℚ) ≤ leadingBit := by norm_num [leadingBit]
  rw [magnitude_eq]
  generalize unitExponent numerator denominator = e at *
  have nearest (m : ℕ) := halfEven_scaled numerator m (e := e) hd
  have units : (numerator / denominator / 2 ^ e : ℚ) =
      numerator / denominator / 2 ^ x.exponent * 2 ^ (x.exponent - e) := by
    rw [zpow_sub₀ two_ne_zero]
    field_simp
  -- from here on only the two quotients matter, in units of the number and of the rounding
  generalize (numerator / denominator / 2 ^ x.exponent : ℚ) = y at *
  generalize (numerator / denominator / 2 ^ e : ℚ) = z at *
  rcases lt_trichotomy e x.exponent with below | rfl | above
  · -- the quotient carries over into the next exponent, so the number is a power of two
    obtain ⟨rfl, boundary⟩ := boundary_of_carry below lowest lower (units ▸ fits)
    rw [show x.exponent - (x.exponent - 1) = 1 by omega, zpow_one] at units
    have edge : (4 * leadingBit : ℚ) = x.interval.low + 1 := by
      rw [← boundary]
      exact_mod_cast interval_low_of_leadingBit boundary (lowest.trans_lt below)
    rw [nearest (2 * leadingBit) (by push_cast; linarith) (by push_cast; linarith) fun _ => rfl,
      boundary]
    have := x.le_exponent
    rw [show (x.exponent + 1074).toNat = (x.exponent - 1 + 1074).toNat + 1 by omega]
    ring
  · -- the quotient is rounded in the places of the number
    rw [sub_self, zpow_zero, mul_one] at units
    subst units
    rw [nearest x.significand (by linarith) (by linarith)]
    rintro (equal | equal)
    · exact tie (Or.inl (by linarith))
    · exact tie (Or.inr (by linarith))
  · -- the quotient would be too large for the significand of the number
    have least := normal (x.le_exponent.trans_lt above)
    have : (2 : ℚ) ^ (x.exponent - e) ≤ 2 ^ (-1 : ℤ) := by
      gcongr
      omega
    norm_num at this
    nlinarith

end PlanCompiler.Binary64
