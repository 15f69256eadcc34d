import Mathlib.Tactic.IntervalCases
import PlanCompiler.Calendar
import PlanCompiler.Proofs.Numeral

/-!
# Printed dates

The date of a day number exists in the calendar and has that day number, and a printed date is
read back if its year has four digits. No other printed date is read at all: a year with more
digits makes the text too long, and the minus sign of a negative year is taken for a hyphen.

## Main results

* `CivilDate.isProper_of_ofDays`, `CivilDate.toDays_of_ofDays`: the date of a day number;
* `Calendar.parseDate?_text`: exactly the dates of the years 0 to 9999 are read back.
-/

namespace PlanCompiler

/-- A guarded result is the exact one, if that is a number of 32 bits. -/
theorem Overflow.guard_eq_ok_iff {operation : Overflow} {exact result : Int} :
    operation.guard exact = .ok result ↔
      result = exact ∧ -0x80000000 ≤ exact ∧ exact < 0x80000000 := by
  rw [guard]
  by_cases fits : -0x80000000 ≤ exact ∧ exact < 0x80000000
  · rw [if_pos fits, Except.ok.injEq, and_iff_left fits, eq_comm]
  · rw [if_neg fits]
    exact ⟨nofun, fun ⟨_, inside⟩ => absurd inside fits⟩

/-- What fits into 32 bits is the result. -/
theorem Overflow.guard_of_fits (operation : Overflow) {exact : Int} (low : -0x80000000 ≤ exact)
    (high : exact < 0x80000000) : operation.guard exact = .ok exact :=
  guard_eq_ok_iff.2 ⟨rfl, low, high⟩

namespace CivilDate

/-! ## Days of an era -/

/-- A day of an era by century, leap cycle, year of the cycle and day of the year. The leap day
of a year comes last, and the last day of a century is none unless it ends the era. -/
theorem exists_day_of_era {day : Int} (first : 0 ≤ day) (last : day < 146097) :
    ∃ century cycle year rest : Int, day = 36524 * century + 1461 * cycle + 365 * year + rest ∧
      (0 ≤ century ∧ century ≤ 3) ∧ (0 ≤ cycle ∧ cycle ≤ 24) ∧ (0 ≤ year ∧ year ≤ 3) ∧
      (0 ≤ rest ∧ rest ≤ 364 ∨ rest = 365 ∧ year = 3 ∧ (cycle ≤ 23 ∨ century = 3)) := by
  obtain ⟨century, hcentury⟩ : ∃ century, century = min (day / 36524) 3 := ⟨_, rfl⟩
  obtain ⟨ofCentury, hofCentury⟩ : ∃ rest, rest = day - 36524 * century := ⟨_, rfl⟩
  obtain ⟨cycle, hcycle⟩ : ∃ cycle, cycle = ofCentury / 1461 := ⟨_, rfl⟩
  obtain ⟨ofCycle, hofCycle⟩ : ∃ rest, rest = ofCentury - 1461 * cycle := ⟨_, rfl⟩
  obtain ⟨year, hyear⟩ : ∃ year, year = min (ofCycle / 365) 3 := ⟨_, rfl⟩
  have centuryRange : 0 ≤ century ∧ century ≤ 3 ∧ 0 ≤ ofCentury ∧ ofCentury ≤ 36524 ∧
    (ofCentury = 36524 → century = 3) := by omega
  have cycleRange : 0 ≤ cycle ∧ cycle ≤ 24 ∧ 0 ≤ ofCycle ∧ ofCycle ≤ 1460 := by omega
  exact ⟨century, cycle, year, ofCycle - 365 * year,
    by omega, by omega, by omega, by omega, by omega⟩

/-- The year of an era and the day of the year. -/
theorem yearOfEra_spec {day year rest : Int} (first : 0 ≤ day) (last : day < 146097)
    (hyear : year = (day - day / 1460 + day / 36524 - day / 146096) / 365)
    (hrest : rest = day - (365 * year + year / 4 - year / 100)) :
    (0 ≤ year ∧ year ≤ 399) ∧ (0 ≤ rest ∧ rest ≤ 365) ∧
      (rest = 365 → isLeapYear (year + 1) = true) := by
  obtain ⟨century, cycle, inner, leap, hday, hcentury, hcycle, hinner, hleap⟩ :=
    exists_day_of_era first last
  -- the last day of the era would count as a fifth century
  have centuries : day / 36524 - day / 146096 = century := by
    clear hyear hrest
    have whole : 1461 * cycle + 365 * inner + leap ≤ 36523 ∨ day = 146096 ∧ century = 3 := by omega
    rcases whole with inside | ⟨rfl, rfl⟩
    · have : day / 36524 = century := by omega
      have : day / 146096 = 0 := by omega
      omega
    · rfl
  -- the leap days before the day amount to one more cycle only late in the last year of a cycle
  have cycles : day / 1460 = 25 * century + cycle ∧ leap ≤ 364 ∨
      day / 1460 = 25 * century + cycle + 1 ∧ 1 ≤ leap := by
    clear hyear hrest centuries
    omega
  have whole : year = 100 * century + 4 * cycle + inner := by
    rw [hyear]
    clear hyear hrest
    generalize day / 1460 = a at *
    generalize day / 36524 = b at *
    generalize day / 146096 = c at *
    omega
  have quarter : year / 4 = 25 * century + cycle := by
    clear hyear hrest cycles centuries hday
    omega
  have hundredth : year / 100 = century := by
    clear hyear hrest cycles centuries hday
    omega
  have same : rest = leap := by omega
  subst same
  refine ⟨by omega, by omega, fun atEnd => ?_⟩
  have ⟨lastInner, lastCycle⟩ : inner = 3 ∧ (cycle ≤ 23 ∨ century = 3) := by omega
  clear hyear hrest cycles centuries hday
  simp only [isLeapYear, decide_eq_true_iff]
  omega

/-- The month of a day of the year, counted from March, and the day of the month. -/
theorem fromMarch_spec {rest fromMarch day : Int} (first : 0 ≤ rest) (last : rest ≤ 365)
    (hmonth : fromMarch = (5 * rest + 2) / 153)
    (hday : day = rest - (153 * fromMarch + 2) / 5 + 1) :
    (0 ≤ fromMarch ∧ fromMarch ≤ 11) ∧ (1 ≤ day ∧ day ≤ 31) ∧
      (fromMarch = 1 ∨ fromMarch = 3 ∨ fromMarch = 6 ∨ fromMarch = 8 → day ≤ 30) ∧
      (fromMarch = 11 → day ≤ 28 ∨ day = 29 ∧ rest = 365) := by
  have range : 0 ≤ fromMarch ∧ fromMarch ≤ 11 := by omega
  obtain ⟨low, high⟩ := range
  -- one month at a time, so that the quotients are of constants
  interval_cases fromMarch <;> omega

/-- Leap years repeat with the eras. -/
theorem isLeapYear_add_eras (year era : Int) : isLeapYear (year + era * 400) = isLeapYear year := by
  unfold isLeapYear
  rw [decide_eq_decide]
  omega

/-- No month has more than 31 days. -/
theorem daysInMonth_le (year : Int) (month : Nat) : daysInMonth year month ≤ 31 := by
  unfold daysInMonth
  split_ifs <;> decide

/-- The divisions by which the date of a day number is computed, and the ranges of their results. -/
theorem exists_divisions (number : Int) :
    ∃ era day year rest fromMarch : Int,
      era = number / 146097 ∧ day = number % 146097 ∧
      year = (day - day / 1460 + day / 36524 - day / 146096) / 365 ∧
      rest = day - (365 * year + year / 4 - year / 100) ∧ fromMarch = (5 * rest + 2) / 153 ∧
      (0 ≤ day ∧ day < 146097) ∧ (0 ≤ year ∧ year ≤ 399) ∧ (0 ≤ rest ∧ rest ≤ 365) ∧
      (rest = 365 → isLeapYear (year + 1) = true) ∧ (0 ≤ fromMarch ∧ fromMarch ≤ 11) ∧
      1 ≤ rest - (153 * fromMarch + 2) / 5 + 1 ∧ rest - (153 * fromMarch + 2) / 5 + 1 ≤ 31 := by
  have dayRange : 0 ≤ number % 146097 ∧ number % 146097 < 146097 := by omega
  have ⟨yearRange, restRange, leap⟩ := yearOfEra_spec dayRange.1 dayRange.2 rfl rfl
  have ⟨monthRange, inMonth, _⟩ := fromMarch_spec restRange.1 restRange.2 rfl rfl
  exact ⟨_, _, _, _, _, rfl, rfl, rfl, rfl, rfl, dayRange, yearRange, restRange, leap, monthRange,
    inMonth⟩

/-- The computation of the date of a day number, in exact arithmetic. -/
theorem exists_of_ofDays {days : Int32} {date : CivilDate} (h : ofDays days = .ok date) :
    ∃ era day year rest fromMarch : Int,
      days.toInt + 719468 = era * 146097 + day ∧ (0 ≤ day ∧ day < 146097) ∧
      days.toInt + 719468 < 0x80000000 ∧
      (0 ≤ year ∧ year ≤ 399) ∧ (0 ≤ rest ∧ rest ≤ 365) ∧
      (rest = 365 → isLeapYear (year + 1) = true) ∧
      day = 365 * year + year / 4 - year / 100 + rest ∧
      fromMarch = (5 * rest + 2) / 153 ∧
      date.year.toInt = year + era * 400 + (if fromMarch < 10 then 0 else 1) ∧
      date.month.toNat = (if fromMarch < 10 then fromMarch + 3 else fromMarch - 9).toNat ∧
      date.day.toNat = (rest - (153 * fromMarch + 2) / 5 + 1).toNat := by
  obtain ⟨fromYearZero, found, result⟩ := bind_eq_ok_iff.1 h
  obtain ⟨rfl, -, small⟩ := Overflow.guard_eq_ok_iff.1 found
  have least := days.le_toInt
  obtain ⟨era, day, year, rest, fromMarch, hera, hday, hyear, hrest, hmonth, dayRange, yearRange,
    restRange, leap, monthRange, inMonth⟩ := exists_divisions (days.toInt + 719468)
  -- the intermediate results of the computation get the names of their values
  dsimp only at result
  rw [← hera, ← hday, ← hyear, ← hrest, ← hmonth] at result
  obtain rfl := Except.ok.inj result
  -- months and days are small numbers
  have words (n : Int) (range : 0 ≤ n ∧ n ≤ 31) : (UInt32.ofNat n.toNat).toNat = n.toNat :=
    UInt32.toNat_ofNat_of_lt' (show n.toNat < 2 ^ 32 by omega)
  refine ⟨era, day, year, rest, fromMarch, by omega, dayRange, small, yearRange, restRange, leap,
    by omega, hmonth, ?_, ?_, ?_⟩
  · dsimp only
    have later :
        (if (if fromMarch < 10 then fromMarch + 3 else fromMarch - 9) ≤ 2 then (1 : Int) else 0) =
          if fromMarch < 10 then 0 else 1 := by
      split <;> omega
    rw [later, Int32.toInt_ofInt_of_le]
    · clear hyear hrest hmonth
      split <;> omega
    · clear hyear hrest hmonth
      split <;> omega
  · exact words _ (by split <;> omega)
  · exact words _ (by omega)

/-- The date of a day number is a date of the calendar. -/
theorem isProper_of_ofDays {days : Int32} {date : CivilDate} (h : ofDays days = .ok date) :
    date.IsProper := by
  obtain ⟨era, day, year, rest, fromMarch, -, -, -, -, restRange, leap, -, hmonth, hyear, month,
    dayOfMonth⟩ := exists_of_ofDays h
  have ⟨⟨low, high⟩, inMonth, short, february⟩ := fromMarch_spec restRange.1 restRange.2 hmonth rfl
  unfold IsProper
  rw [month, dayOfMonth]
  generalize rest - (153 * fromMarch + 2) / 5 + 1 = day at *
  clear hmonth month dayOfMonth
  refine ⟨by split <;> omega, by split <;> omega, by omega, ?_⟩
  rcases Int.lt_or_eq_of_le high with march | rfl
  · -- the length of every month but February is fixed
    have fixed :
        daysInMonth date.year.toInt
            (if fromMarch < 10 then fromMarch + 3 else fromMarch - 9).toNat =
        if fromMarch = 1 ∨ fromMarch = 3 ∨ fromMarch = 6 ∨ fromMarch = 8 then 30 else 31 := by
      clear hyear february short
      interval_cases fromMarch <;> rfl
    rw [fixed]
    split
    · exact Int.toNat_le.2 (short ‹_›)
    · exact Int.toNat_le.2 inMonth.2
  · rw [if_neg (by decide)] at hyear
    have length :
        daysInMonth date.year.toInt (if (11 : Int) < 10 then (11 + 3 : Int) else 11 - 9).toNat =
        if isLeapYear (year + 1) then 29 else 28 := by
      rw [hyear, show year + era * 400 + 1 = year + 1 + era * 400 by omega]
      unfold daysInMonth
      rw [isLeapYear_add_eras]
      rfl
    rw [length]
    rcases february rfl with fits | ⟨rfl, last⟩
    · split <;> omega
    · rw [if_pos (leap last)]
      rfl

/-- The day number of a date in a year that starts in March. -/
def marchDays (year fromMarch day : Int) : Except Overflow Int32 := do
  let scaled ← Overflow.multiply.guard (153 * fromMarch)
  let shifted ← Overflow.add.guard (scaled + 2)
  let counted ← Overflow.add.guard (shifted.tdiv 5 + day)
  let dayOfYear ← Overflow.subtract.guard (counted - 1)
  let dayOfEra ← Overflow.add.guard
    (year % 400 * 365 + year % 400 / 4 - year % 400 / 100 + dayOfYear)
  let eraStart ← Overflow.multiply.guard (year / 400 * 146097)
  let fromYearZero ← Overflow.add.guard (eraStart + dayOfEra)
  let days ← Overflow.subtract.guard (fromYearZero - 719468)
  return Int32.ofInt days

/-- January and February are counted to the year before. -/
theorem toDays_eq (date : CivilDate) :
    date.toDays =
      if date.month ≤ 2 then
        Overflow.subtract.guard (date.year.toInt - 1) >>= fun year =>
          marchDays year (date.month.toInt32.toInt + 9) date.day.toInt32.toInt
      else
        Overflow.subtract.guard (date.month.toInt32.toInt - 3) >>= fun fromMarch =>
          marchDays date.year.toInt fromMarch date.day.toInt32.toInt := by
  unfold toDays
  dsimp only
  split
  · cases Overflow.subtract.guard (date.year.toInt - 1) <;> rfl
  · cases Overflow.subtract.guard (date.month.toInt32.toInt - 3) <;> rfl

/-- A small number keeps its value as a signed one. -/
theorem toInt_toInt32 {n : UInt32} (small : n.toNat ≤ 31) : n.toInt32.toInt = n.toNat :=
  BitVec.toInt_eq_toNat_of_lt (show 2 * n.toNat < 2 ^ 32 by omega)

/-- The steps from the parts of a day number back to the day number, none of which overflows. -/
theorem marchDays_eq_ok {days : Int32} {era day year rest fromMarch : Int}
    (sum : days.toInt + 719468 = era * 146097 + day) (dayRange : 0 ≤ day ∧ day < 146097)
    (yearRange : 0 ≤ year ∧ year ≤ 399) (restRange : 0 ≤ rest ∧ rest ≤ 365)
    (hday : day = 365 * year + year / 4 - year / 100 + rest)
    (hmonth : fromMarch = (5 * rest + 2) / 153) (small : days.toInt + 719468 < 0x80000000) :
    marchDays (year + era * 400) fromMarch (rest - (153 * fromMarch + 2) / 5 + 1) = .ok days := by
  have least := days.le_toInt
  have ⟨monthRange, _⟩ := fromMarch_spec restRange.1 restRange.2 hmonth rfl
  have eras : (year + era * 400) / 400 = era := by omega
  have years : (year + era * 400) % 400 = year := by omega
  -- the computation divides towards zero, which differs from `/` only below zero
  have before : (153 * fromMarch + 2).tdiv 5 = (153 * fromMarch + 2) / 5 :=
    Int.tdiv_eq_ediv_of_nonneg (by omega)
  unfold marchDays
  rw [eras, years]
  clear eras years
  refine bind_eq_ok_iff.2 ⟨153 * fromMarch, Overflow.guard_of_fits _ (by omega) (by omega), ?_⟩
  refine bind_eq_ok_iff.2 ⟨153 * fromMarch + 2, Overflow.guard_of_fits _ (by omega) (by omega), ?_⟩
  rw [before]
  refine bind_eq_ok_iff.2 ⟨rest + 1, Overflow.guard_eq_ok_iff.2 (by omega), ?_⟩
  refine bind_eq_ok_iff.2 ⟨rest, Overflow.guard_eq_ok_iff.2 (by omega), ?_⟩
  refine bind_eq_ok_iff.2 ⟨day, Overflow.guard_eq_ok_iff.2 (by omega), ?_⟩
  refine bind_eq_ok_iff.2 ⟨era * 146097, Overflow.guard_of_fits _ (by omega) (by omega), ?_⟩
  refine bind_eq_ok_iff.2 ⟨days.toInt + 719468, Overflow.guard_eq_ok_iff.2 (by omega), ?_⟩
  refine bind_eq_ok_iff.2 ⟨days.toInt, Overflow.guard_eq_ok_iff.2 (by omega), ?_⟩
  rw [Int32.ofInt_toInt]
  rfl

/-- The date of a day number has that day number. -/
theorem toDays_of_ofDays {days : Int32} {date : CivilDate} (h : ofDays days = .ok date) :
    date.toDays = .ok days := by
  obtain ⟨era, day, year, rest, fromMarch, sum, dayRange, small, yearRange, restRange, -, hday,
    hmonth, hyear, month, dayOfMonth⟩ := exists_of_ofDays h
  have ⟨monthRange, inMonth, _⟩ := fromMarch_spec restRange.1 restRange.2 hmonth rfl
  have least := days.le_toInt
  have early : date.month ≤ 2 ↔ ¬ fromMarch < 10 := by
    rw [UInt32.le_iff_toNat_le, month]
    show _ ≤ 2 ↔ _
    split <;> omega
  have month' :
      date.month.toInt32.toInt = if fromMarch < 10 then fromMarch + 3 else fromMarch - 9 := by
    rw [toInt_toInt32 (by rw [month]; split <;> omega), month]
    split <;> omega
  have dayOfMonth' : date.day.toInt32.toInt = rest - (153 * fromMarch + 2) / 5 + 1 := by
    rw [toInt_toInt32 (by omega), dayOfMonth]
    omega
  have counted := marchDays_eq_ok sum dayRange yearRange restRange hday hmonth small
  rw [toDays_eq, month', dayOfMonth', hyear]
  -- January and February are the months ten and eleven after March
  by_cases late : fromMarch < 10
  · rw [if_neg (by rw [early]; omega), if_pos late, if_pos late, Int.add_zero]
    exact bind_eq_ok_iff.2 ⟨fromMarch, Overflow.guard_eq_ok_iff.2 (by omega), counted⟩
  · rw [if_pos (early.2 late), if_neg late, if_neg late, Int.sub_add_cancel]
    exact bind_eq_ok_iff.2 ⟨year + era * 400, Overflow.guard_eq_ok_iff.2 (by omega), counted⟩

/-- The days from the first of March of the year zero to that of a year. -/
def marchStart (year : Int) : Int := 365 * year + year / 4 - year / 100 + year / 400

/-- The eras, the years of the era and the days of the year add up to a day number. -/
theorem toInt_of_marchDays {year fromMarch day : Int} {days : Int32}
    (counted : marchDays year fromMarch day = .ok days) :
    days.toInt + 719468 = marchStart year + ((153 * fromMarch + 2).tdiv 5 + day - 1) ∧
      days.toInt + 719468 < 0x80000000 := by
  unfold marchDays at counted
  obtain ⟨scaled, hscaled, counted⟩ := bind_eq_ok_iff.1 counted
  obtain ⟨shifted, hshifted, counted⟩ := bind_eq_ok_iff.1 counted
  obtain ⟨ofMonth, hofMonth, counted⟩ := bind_eq_ok_iff.1 counted
  obtain ⟨ofYear, hofYear, counted⟩ := bind_eq_ok_iff.1 counted
  obtain ⟨ofEra, hofEra, counted⟩ := bind_eq_ok_iff.1 counted
  obtain ⟨eras, heras, counted⟩ := bind_eq_ok_iff.1 counted
  obtain ⟨fromYearZero, summed, counted⟩ := bind_eq_ok_iff.1 counted
  obtain ⟨number, subtracted, result⟩ := bind_eq_ok_iff.1 counted
  -- a guard that is passed leaves the number as it is, so the steps can be put together
  obtain ⟨rfl, -⟩ := Overflow.guard_eq_ok_iff.1 hscaled
  obtain ⟨rfl, -⟩ := Overflow.guard_eq_ok_iff.1 hshifted
  obtain ⟨rfl, -⟩ := Overflow.guard_eq_ok_iff.1 hofMonth
  obtain ⟨rfl, -⟩ := Overflow.guard_eq_ok_iff.1 hofYear
  obtain ⟨rfl, -⟩ := Overflow.guard_eq_ok_iff.1 hofEra
  obtain ⟨rfl, -⟩ := Overflow.guard_eq_ok_iff.1 heras
  obtain ⟨rfl, -, small⟩ := Overflow.guard_eq_ok_iff.1 summed
  obtain ⟨rfl, low, high⟩ := Overflow.guard_eq_ok_iff.1 subtracted
  rw [← Except.ok.inj result, Int32.toInt_ofInt_of_le low (by omega), Int.sub_add_cancel]
  refine ⟨?_, small⟩
  unfold marchStart
  -- the rest is linear, whatever the months add
  generalize (153 * fromMarch + 2).tdiv 5 = months
  omega

/-- A day number that is computed from a date is one of the calendar: the last step of the
computation is the first one of the way back. -/
theorem exists_ofDays_of_marchDays {year fromMarch day : Int} {days : Int32}
    (counted : marchDays year fromMarch day = .ok days) : ∃ civil, ofDays days = .ok civil := by
  have ⟨_, small⟩ := toInt_of_marchDays counted
  have least := days.le_toInt
  exact ⟨_, bind_eq_ok_iff.2 ⟨_, Overflow.guard_of_fits _ (by omega) small, rfl⟩⟩

/-- A date that has a day number is in the calendar. -/
theorem exists_ofDays_of_toDays {date : CivilDate} {days : Int32} (h : date.toDays = .ok days) :
    ∃ civil, ofDays days = .ok civil := by
  rw [toDays_eq] at h
  split at h
  · obtain ⟨_, -, counted⟩ := bind_eq_ok_iff.1 h
    exact exists_ofDays_of_marchDays counted
  · obtain ⟨_, -, counted⟩ := bind_eq_ok_iff.1 h
    exact exists_ofDays_of_marchDays counted

/-! ## Written dates -/

/-- The text before the first hyphen, if it has none itself. -/
theorem cutAtHyphen_append {before after : List Char} (h : '-' ∉ before) :
    cutAtHyphen (before ++ '-' :: after) = (before, some after) := by
  have all : ∀ c ∈ before, decide (c ≠ '-') = true := by
    rintro c member
    exact decide_eq_true fun equal => h (equal ▸ member)
  unfold cutAtHyphen
  rw [List.takeWhile_append_of_pos all, List.dropWhile_append_of_pos all]
  simp

/-- A number with zeros in front has no hyphen. -/
theorem hyphen_notMem_zeroFill (width n : Nat) :
    '-' ∉ (Numeral.zeroFill width (toString n)).toList := by
  intro member
  exact absurd (Numeral.isDigit_of_mem_zeroFill member) (by decide)

/-- The characters of a date that is not before the year zero. -/
theorem toList_text {date : CivilDate} (h : 0 ≤ date.year.toInt) :
    date.text.toList =
      (Numeral.zeroFill 4 (toString date.year.toInt.natAbs)).toList ++ '-' ::
        ((Numeral.zeroFill 2 (toString date.month.toNat)).toList ++ '-' ::
          (Numeral.zeroFill 2 (toString date.day.toNat)).toList) := by
  unfold text Numeral.signedWidth
  rw [if_neg (by omega)]
  simp [String.toList_append]

/-- The characters of a date. -/
theorem isDigit_or_hyphen_of_mem_text {date : CivilDate} {c : Char} (h : c ∈ date.text.toList) :
    c.isDigit = true ∨ c = '-' := by
  unfold text Numeral.signedWidth at h
  simp only [String.toList_append, List.mem_append] at h
  rcases h with (((year | hyphen) | month) | hyphen) | day
  · split at year
    · rw [String.toList_append, List.mem_append] at year
      rcases year with minus | year
      · exact Or.inr (List.mem_singleton.1 minus)
      · exact Or.inl (Numeral.isDigit_of_mem_zeroFill year)
    · exact Or.inl (Numeral.isDigit_of_mem_zeroFill year)
  · exact Or.inr (List.mem_singleton.1 hyphen)
  · exact Or.inl (Numeral.isDigit_of_mem_zeroFill month)
  · exact Or.inr (List.mem_singleton.1 hyphen)
  · exact Or.inl (Numeral.isDigit_of_mem_zeroFill day)

/-- The year of a written date has as many bytes as are left beside the month and the day. -/
theorem utf8ByteSize_text {date : CivilDate} (h : 0 ≤ date.year.toInt) (proper : date.IsProper) :
    date.text.utf8ByteSize = 10 ↔ date.year.toInt ≤ 9999 := by
  -- the month and the day have two digits each, and the hyphens are two more characters
  have two {n : Nat} (small : n < 100) :
      (Numeral.zeroFill 2 (toString n)).toList.length = 2 := by
    have := (Nat.length_toDigits_le_iff (n := n) (b := 10) (k := 2) (by decide) (by decide)).2 small
    rw [Numeral.length_zeroFill]
    omega
  have month : date.month.toNat < 100 := by have := proper.2.1; omega
  have day : date.day.toNat < 100 := by
    have bound := proper.2.2.2
    have := daysInMonth_le date.year.toInt date.month.toNat
    omega
  have year := Nat.length_toDigits_le_iff (n := date.year.toInt.natAbs) (b := 10) (k := 4)
    (by decide)
    (by decide)
  rw [Numeral.utf8ByteSize_eq_length, toList_text h, List.length_append, List.length_cons,
    List.length_append, List.length_cons, two month, two day, Numeral.length_zeroFill]
  · omega
  · intro c member
    rcases isDigit_or_hyphen_of_mem_text member with digit | rfl
    · exact Numeral.utf8Size_of_isDigit digit
    · rfl

/-- Of the dates of the calendar exactly those of the years 0 to 9999 are read back. -/
theorem ofText?_text {date : CivilDate} (proper : date.IsProper) :
    ofText? date.text =
      if 0 ≤ date.year.toInt ∧ date.year.toInt ≤ 9999 then some date else none := by
  unfold ofText?
  by_cases nonneg : 0 ≤ date.year.toInt
  · have size := utf8ByteSize_text nonneg proper
    rw [toList_text nonneg, cutAtHyphen_append (hyphen_notMem_zeroFill _ _)]
    dsimp only [Option.bind_eq_bind, Option.bind_some]
    rw [cutAtHyphen_append (hyphen_notMem_zeroFill _ _),
      Numeral.int32?_of_natural? date.year (Numeral.natural?_zeroFill _ _) nonneg,
      Numeral.uint32?_of_natural? date.month (Numeral.natural?_zeroFill _ _)]
    dsimp only [Option.bind_some]
    rw [Numeral.uint32?_of_natural? date.day (Numeral.natural?_zeroFill _ _)]
    by_cases short : date.year.toInt ≤ 9999 <;> simp [guard, proper, size, nonneg, short]
  · -- the minus sign of the year is taken for the hyphen after it
    have minus : ∃ rest, date.text.toList = '-' :: rest := by
      unfold text Numeral.signedWidth
      rw [if_pos (by omega)]
      exact ⟨_, by simp only [String.toList_append, List.append_assoc]; rfl⟩
    obtain ⟨rest, chars⟩ := minus
    have none : Numeral.int32? [] = none := rfl
    rw [chars, ← List.nil_append ('-' :: rest), cutAtHyphen_append List.not_mem_nil,
      if_neg fun range => nonneg range.1]
    simp [none]

end CivilDate

namespace Calendar

/-- A day number is read from its printed date exactly in the years 0 to 9999. -/
theorem parseDate?_text {days : Int32} {date : CivilDate} (h : CivilDate.ofDays days = .ok date) :
    parseDate? date.text =
      if 0 ≤ date.year.toInt ∧ date.year.toInt ≤ 9999 then some days else none := by
  rw [parseDate?, CivilDate.ofText?_text (CivilDate.isProper_of_ofDays h)]
  split
  · show date.toDays.toOption = some days
    rw [CivilDate.toDays_of_ofDays h]
    rfl
  · rfl

/-- The calendar has every date that is read. -/
theorem exists_ofDays_of_parseDate? {text : String} {days : Int32}
    (read : parseDate? text = some days) : ∃ date, CivilDate.ofDays days = .ok date := by
  obtain ⟨date, -, counted⟩ := Option.bind_eq_some_iff.1 read
  cases found : date.toDays with
  | error operation =>
    rw [found] at counted
    cases counted
  | ok number =>
    rw [found] at counted
    exact CivilDate.exists_ofDays_of_toDays (Option.some.inj counted ▸ found)

end Calendar

end PlanCompiler
