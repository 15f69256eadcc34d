import PlanCompiler.Proofs.Calendar.Succession

/-!
# Every operation of the date conversions

The conversions between day numbers and dates check only those operations whose results may not
fit into 32 bits. Here every operation is checked, in the order in which the operations are carried
out, and divisions round towards zero. That gives the same conversions, so that no other operation
overflows; and the conversions are inverse to each other wherever both have results.

## Main results

* `CivilDate.ofDaysStepwise_eq`, `CivilDate.toDaysStepwise_eq`: the unchecked operations fit;
* `CivilDate.ofDays_and_toDays_inverse`: where the conversions overflow, and that they are inverse.
-/

namespace PlanCompiler.CivilDate

/-! ## The conversions operation by operation -/

/-- The days of an era before one of its years. -/
def yearStartStepwise (year : Int) : Except Overflow Int := do
  let common ← Overflow.multiply.guard (365 * year)
  let leap ← Overflow.add.guard (common + year.tdiv 4)
  Overflow.subtract.guard (leap - year.tdiv 100)

/-- The days from the first of March to the first of a later month. -/
def monthStartStepwise (fromMarch : Int) : Except Overflow Int := do
  let scaled ← Overflow.multiply.guard (153 * fromMarch)
  let shifted ← Overflow.add.guard (scaled + 2)
  return shifted.tdiv 5

/-- The day number of a date in a year that starts in March. -/
def marchDaysStepwise (year fromMarch day : Int) : Except Overflow Int32 := do
  let ofMonth ← Overflow.add.guard ((← monthStartStepwise fromMarch) + day)
  let ofYear ← Overflow.subtract.guard (ofMonth - 1)
  let ofEra ← Overflow.add.guard ((← yearStartStepwise (year % 400)) + ofYear)
  let eras ← Overflow.multiply.guard (year / 400 * 146097)
  let fromYearZero ← Overflow.add.guard (eras + ofEra)
  let days ← Overflow.subtract.guard (fromYearZero - 719468)
  return Int32.ofInt days

/-- The day number of a date, with a check of every operation. -/
def toDaysStepwise (date : CivilDate) : Except Overflow Int32 :=
  if date.month ≤ 2 then do
    let year ← Overflow.subtract.guard (date.year.toInt - 1)
    let fromMarch ← Overflow.add.guard (date.month.toInt32.toInt + 9)
    marchDaysStepwise year fromMarch date.day.toInt32.toInt
  else do
    let fromMarch ← Overflow.subtract.guard (date.month.toInt32.toInt - 3)
    marchDaysStepwise date.year.toInt fromMarch date.day.toInt32.toInt

/-- The year of an era in which a day of the era is. -/
def yearOfEraStepwise (dayOfEra : Int) : Except Overflow Int := do
  let shorter ← Overflow.subtract.guard (dayOfEra - dayOfEra.tdiv 1460)
  let longer ← Overflow.add.guard (shorter + dayOfEra.tdiv 36524)
  let common ← Overflow.subtract.guard (longer - dayOfEra.tdiv 146096)
  return common.tdiv 365

/-- The months since March on a day of the year. -/
def fromMarchStepwise (dayOfYear : Int) : Except Overflow Int := do
  let scaled ← Overflow.multiply.guard (5 * dayOfYear)
  let shifted ← Overflow.add.guard (scaled + 2)
  return shifted.tdiv 153

/-- The month of the calendar. -/
def monthStepwise (fromMarch : Int) : Except Overflow Int :=
  if fromMarch < 10 then Overflow.add.guard (fromMarch + 3)
  else Overflow.subtract.guard (fromMarch - 9)

/-- The date of a day number, with a check of every operation. -/
def ofDaysStepwise (days : Int32) : Except Overflow CivilDate := do
  let fromYearZero ← Overflow.add.guard (days.toInt + 719468)
  let era := fromYearZero / 146097
  let dayOfEra := fromYearZero % 146097
  let yearOfEra ← yearOfEraStepwise dayOfEra
  let dayOfYear ← Overflow.subtract.guard (dayOfEra - (← yearStartStepwise yearOfEra))
  let fromMarch ← fromMarchStepwise dayOfYear
  let before ← Overflow.subtract.guard (dayOfYear - (← monthStartStepwise fromMarch))
  let day ← Overflow.add.guard (before + 1)
  let month ← monthStepwise fromMarch
  let eras ← Overflow.multiply.guard (era * 400)
  let ofMarch ← Overflow.add.guard (yearOfEra + eras)
  let year ← Overflow.add.guard (ofMarch + if UInt32.ofInt month ≤ 2 then 1 else 0)
  return { year := Int32.ofInt year, month := UInt32.ofInt month, day := UInt32.ofInt day }

/-- An operation whose result fits does not stop the computation. -/
theorem guard_bind {α : Type} (operation : Overflow) {exact : Int} (low : -0x80000000 ≤ exact)
    (high : exact < 0x80000000) (after : Int → Except Overflow α) :
    operation.guard exact >>= after = after exact := by
  rw [Overflow.guard_of_fits operation low high]
  rfl

/-- Within an era, the start of a year is computed without overflow. -/
theorem yearStartStepwise_eq {year : Int} (first : 0 ≤ year) (last : year ≤ 399) :
    yearStartStepwise year = .ok (365 * year + year / 4 - year / 100) := by
  unfold yearStartStepwise
  rw [Int.tdiv_eq_ediv_of_nonneg first, Int.tdiv_eq_ediv_of_nonneg first,
    guard_bind _ (by omega) (by omega), guard_bind _ (by omega) (by omega),
    Overflow.guard_of_fits _ (by omega) (by omega)]

/-- The start of a month is computed without overflow. -/
theorem monthStartStepwise_eq {fromMarch : Int} (first : 0 ≤ fromMarch) (last : fromMarch ≤ 11) :
    monthStartStepwise fromMarch = .ok ((153 * fromMarch + 2) / 5) := by
  unfold monthStartStepwise
  rw [guard_bind _ (by omega) (by omega), guard_bind _ (by omega) (by omega),
    Int.tdiv_eq_ediv_of_nonneg (by omega)]
  rfl

/-- Within an era, the year of a day is computed without overflow. -/
theorem yearOfEraStepwise_eq {day : Int} (first : 0 ≤ day) (last : day < 146097) :
    yearOfEraStepwise day =
      .ok ((day - day / 1460 + day / 36524 - day / 146096) / 365) := by
  unfold yearOfEraStepwise
  rw [Int.tdiv_eq_ediv_of_nonneg first, Int.tdiv_eq_ediv_of_nonneg first,
    Int.tdiv_eq_ediv_of_nonneg first, guard_bind _ (by omega) (by omega),
    guard_bind _ (by omega) (by omega), guard_bind _ (by omega) (by omega),
    Int.tdiv_eq_ediv_of_nonneg (by omega)]
  rfl

/-- Within a year, the month of a day is computed without overflow. -/
theorem fromMarchStepwise_eq {dayOfYear : Int} (first : 0 ≤ dayOfYear) (last : dayOfYear ≤ 365) :
    fromMarchStepwise dayOfYear = .ok ((5 * dayOfYear + 2) / 153) := by
  unfold fromMarchStepwise
  rw [guard_bind _ (by omega) (by omega), guard_bind _ (by omega) (by omega),
    Int.tdiv_eq_ediv_of_nonneg (by omega)]
  rfl

/-- The number of a month is computed without overflow. -/
theorem monthStepwise_eq {fromMarch : Int} (first : 0 ≤ fromMarch) (last : fromMarch ≤ 11) :
    monthStepwise fromMarch = .ok (if fromMarch < 10 then fromMarch + 3 else fromMarch - 9) := by
  unfold monthStepwise
  split
  · exact Overflow.guard_of_fits _ (by omega) (by omega)
  · exact Overflow.guard_of_fits _ (by omega) (by omega)

/-- The days since the first of March are computed with the same overflows step by step. -/
theorem marchDaysStepwise_eq (year fromMarch day : Int) :
    marchDaysStepwise year fromMarch day = marchDays year fromMarch day := by
  unfold marchDaysStepwise marchDays monthStartStepwise
  rw [yearStartStepwise_eq (by omega) (by omega)]
  simp only [bind_assoc, pure_bind, Int.mul_comm 365]
  rfl

/-- The days of a date are computed with the same overflows step by step. -/
theorem toDaysStepwise_eq (date : CivilDate) : date.toDaysStepwise = date.toDays := by
  rw [toDays_eq, toDaysStepwise]
  split
  · rename_i beforeMarch
    have small : date.month.toNat ≤ 2 := UInt32.le_iff_toNat_le.1 beforeMarch
    have month := toInt_toInt32 (n := date.month) (by omega)
    refine bind_congr fun year => ?_
    rw [guard_bind _ (by omega) (by omega), marchDaysStepwise_eq]
  · exact bind_congr fun fromMarch => marchDaysStepwise_eq _ _ _

/-- A small number is the same word whether it is cut to 32 bits or taken as it is. -/
theorem ofInt_eq_ofNat {n : Int} (first : 0 ≤ n) (last : n ≤ 31) :
    UInt32.ofInt n = UInt32.ofNat n.toNat := by
  rw [UInt32.ofInt, Int.emod_eq_of_lt first (by omega)]

/-- A small number is compared as an integer. -/
theorem ofInt_le_two_iff {n : Int} (first : 0 ≤ n) (last : n ≤ 31) :
    UInt32.ofInt n ≤ 2 ↔ n ≤ 2 := by
  rw [ofInt_eq_ofNat first last, UInt32.le_iff_toNat_le,
    UInt32.toNat_ofNat_of_lt' (show n.toNat < 2 ^ 32 by omega)]
  exact Int.toNat_le

/-- The date of a day is computed with the same overflows step by step. -/
theorem ofDaysStepwise_eq (days : Int32) : ofDaysStepwise days = ofDays days := by
  have least := days.le_toInt
  unfold ofDaysStepwise ofDays
  cases guarded : Overflow.add.guard (days.toInt + 719468) with
  | error operation => rfl
  | ok fromYearZero =>
    obtain ⟨rfl, -, small⟩ := Overflow.guard_eq_ok_iff.1 guarded
    -- the intermediate results get the names of their values
    obtain ⟨era, day, year, rest, fromMarch, hera, hday, hyear, hrest, hmonth, dayRange, yearRange,
      restRange, -, monthRange, inMonth⟩ := exists_divisions (days.toInt + 719468)
    have eraRange : -20000 ≤ era ∧ era ≤ 20000 := by omega
    have ok_bind {α β : Type} (value : α) (after : α → Except Overflow β) :
      Except.ok value >>= after = after value := rfl
    simp only [ok_bind, ← hera, ← hday]
    -- the year of the era and the day of that year
    rw [yearOfEraStepwise_eq dayRange.1 dayRange.2, ok_bind, ← hyear,
      yearStartStepwise_eq yearRange.1 yearRange.2, ok_bind, ← hrest,
      guard_bind _ (by omega) (by omega)]
    -- the month and the day of the month
    rw [fromMarchStepwise_eq restRange.1 restRange.2, ok_bind, ← hmonth,
      monthStartStepwise_eq monthRange.1 monthRange.2, ok_bind,
      guard_bind _ (by omega) (by omega), guard_bind _ (by omega) (by omega),
      monthStepwise_eq monthRange.1 monthRange.2, ok_bind]
    -- the year
    rw [guard_bind _ (by omega) (by omega), guard_bind _ (by omega) (by omega)]
    obtain ⟨month, calendarMonth⟩ :
      ∃ month, month = if fromMarch < 10 then fromMarch + 3 else fromMarch - 9 := ⟨_, rfl⟩
    have calendarRange : 0 ≤ month ∧ month ≤ 12 := by
      rw [calendarMonth]
      split <;> omega
    rw [← calendarMonth, if_congr (ofInt_le_two_iff calendarRange.1 (by omega)) rfl rfl,
      guard_bind _ (by split <;> omega) (by split <;> omega),
      ofInt_eq_ofNat calendarRange.1 (by omega), ofInt_eq_ofNat (by omega) inMonth.2]

/-- The conversions between day numbers and dates are inverse to each other, and a check of every
operation in them would change nothing. The computation of a date overflows exactly beyond the last
day number of the calendar. From every other day number it yields a day of a month, which has that
day number again without an overflow. And a date of the calendar whose day number does not overflow
is the date of that number. -/
theorem ofDays_and_toDays_inverse :
    (∀ days, ofDaysStepwise days = ofDays days) ∧
      (∀ date : CivilDate, date.toDaysStepwise = date.toDays) ∧
      (∀ days : Int32,
        ((∃ operation, ofDays days = .error operation) ↔ 2147483647 - 719468 < days.toInt) ∧
          (days.toInt ≤ 2147483647 - 719468 →
            ∃ date, ofDays days = .ok date ∧ date.IsProper ∧ date.toDays = .ok days)) ∧
      ∀ (date : CivilDate) (days : Int32), date.IsProper → date.toDays = .ok days →
        ofDays days = .ok date := by
  refine ⟨ofDaysStepwise_eq, toDaysStepwise_eq, fun days => ⟨?_, fun inside => ?_⟩,
    fun date days proper counted => ?_⟩
  · rw [← Int.not_le, ← exists_ofDays_iff]
    cases ofDays days <;> simp
  · obtain ⟨date, found⟩ := exists_ofDays_iff.2 inside
    exact ⟨date, found, isProper_of_ofDays found, toDays_of_ofDays found⟩
  -- a proper date is known by its number, which is the day that it was counted as
  · exact ofDays_eq_ok_of_number proper (number_of_toDays proper counted)
      (exists_ofDays_of_toDays counted)

/-- The last day of the calendar. -/
theorem ofDays_and_toDays_inverse_last :
    (2146764179 : Int32).toInt ≤ 2147483647 - 719468 ∧
      (∃ date, ofDays 2146764179 = .ok date ∧ date.IsProper ∧ date.toDays = .ok 2146764179) ∧
      (∃ operation, ofDays 2146764180 = .error operation) ∧
      (⟨5879610, 9, 9⟩ : CivilDate).IsProper ∧
      (⟨5879610, 9, 9⟩ : CivilDate).toDays = .ok 2146764179 ∧
      ofDays 2146764179 = .ok ⟨5879610, 9, 9⟩ := by
  have bound : (2146764179 : Int32).toInt ≤ 2147483647 - 719468 := by decide
  have proper : (⟨5879610, 9, 9⟩ : CivilDate).IsProper := by decide
  have counted : (⟨5879610, 9, 9⟩ : CivilDate).toDays = .ok 2146764179 := by decide
  have ⟨_, _, dates, back⟩ := ofDays_and_toDays_inverse
  exact ⟨bound, (dates _).2 bound, (dates _).1.2 (by decide), proper, counted,
    back _ _ proper counted⟩

end PlanCompiler.CivilDate
