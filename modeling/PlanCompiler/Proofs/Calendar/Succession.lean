import PlanCompiler.Proofs.Calendar

/-!
# Day numbers and the calendar

The number of a date in exact arithmetic consists of the days before its March year and of those of
that year. Different dates of the calendar have different numbers, and the number grows by one from
each date to the next. So the dates of day numbers are the calendar counted from 1970-01-01.

## Main results

* `CivilDate.eq_of_number_eq`: a date of the calendar is known by its number;
* `CivilDate.number_next`: the next date has the next number;
* `CivilDate.ofDays_next`: the date of the next day number;
* `CivilDate.ofDays_zero_and_succ`: the calendar of the day numbers.
-/

namespace PlanCompiler.CivilDate

/-! ## Years that start in March -/

/-- The year that started in the last March. -/
def marchYear (year : Int) (month : Nat) : Int := if month ≤ 2 then year - 1 else year

/-- The months since the last March. -/
def monthsFromMarch (month : Nat) : Int := if month ≤ 2 then month + 9 else month - 3

/-- The days from the first of March to the first of a later month. -/
def monthStart (fromMarch : Int) : Int := (153 * fromMarch + 2) / 5

/-- The months of a March year follow each other as long as the calendar says. -/
theorem monthStart_add_one {month : Nat} (first : 1 ≤ month) (last : month ≤ 12)
    (notFebruary : month ≠ 2) (year : Int) :
    monthStart (monthsFromMarch month + 1) =
      monthStart (monthsFromMarch month) + daysInMonth year month := by
  interval_cases month
  case «2» => exact absurd rfl notFebruary
  all_goals rfl

/-- February has a day more in leap years. -/
theorem daysInMonth_february (year : Int) :
    daysInMonth year 2 = if isLeapYear year then 29 else 28 :=
  rfl

/-- February ends the March year, with the leap day of the year in which it is. -/
theorem marchStart_add_one (year : Int) :
    marchStart (year + 1) = marchStart year + monthStart 11 + daysInMonth (year + 1) 2 := by
  rw [daysInMonth_february]
  unfold marchStart isLeapYear monthStart
  split
  · rename_i leap
    have leap := of_decide_eq_true leap
    omega
  · rename_i common
    have common := mt decide_eq_true common
    omega

/-- Later March years start later. -/
theorem marchStart_le {a b : Int} (h : a ≤ b) : marchStart a ≤ marchStart b := by
  obtain ⟨years, rfl⟩ := Int.le.dest h
  clear h
  induction years with
  | zero => rw [Int.natCast_zero, Int.add_zero]
  | succ years ih =>
    rw [Int.natCast_add, Int.natCast_one, ← Int.add_assoc, marchStart_add_one]
    have february : 0 ≤ monthStart 11 := by decide
    omega

/-- Every month has a day. -/
theorem daysInMonth_pos (year : Int) (month : Nat) : 1 ≤ daysInMonth year month := by
  unfold daysInMonth
  split_ifs <;> decide

/-! ## Numbers of dates -/

/-- The days from the first of March to a date. -/
def dayOfYear (date : CivilDate) : Int :=
  monthStart (monthsFromMarch date.month.toNat) + date.day.toNat - 1

/-- The day number of a date in exact arithmetic. -/
def number (date : CivilDate) : Int :=
  marchStart (marchYear date.year.toInt date.month.toNat) + date.dayOfYear - 719468

/-- A date is in the month and in the March year that are counted for it. -/
theorem IsProper.dayOfYear_spec {date : CivilDate} (proper : date.IsProper) :
    monthStart (monthsFromMarch date.month.toNat) ≤ date.dayOfYear ∧
      date.dayOfYear < monthStart (monthsFromMarch date.month.toNat + 1) ∧
      marchStart (marchYear date.year.toInt date.month.toNat) + date.dayOfYear <
        marchStart (marchYear date.year.toInt date.month.toNat + 1) := by
  obtain ⟨first, last, low, high⟩ := proper
  rw [marchStart_add_one]
  unfold dayOfYear
  generalize date.month.toNat = month at *
  by_cases february : month = 2
  · subst february
    have leap : daysInMonth date.year.toInt 2 ≤ 29 := by
      rw [daysInMonth_february]
      split <;> decide
    have ofYear : marchYear date.year.toInt 2 + 1 = date.year.toInt := Int.sub_add_cancel _ 1
    rw [ofYear, show monthsFromMarch 2 = 11 from rfl, show monthStart (11 + 1) = 367 from rfl,
      show monthStart 11 = 337 from rfl]
    omega
  · -- the other months end before February begins
    have next := monthStart_add_one first last february date.year.toInt
    have before : monthStart (monthsFromMarch month + 1) ≤ monthStart 11 := by
      unfold monthStart monthsFromMarch
      split <;> omega
    omega

/-- An earlier March year has smaller numbers. -/
theorem number_lt_of_marchYear_lt {a b : CivilDate} (properA : a.IsProper) (properB : b.IsProper)
    (earlier : marchYear a.year.toInt a.month.toNat < marchYear b.year.toInt b.month.toNat) :
    a.number < b.number := by
  have ⟨_, _, ended⟩ := properA.dayOfYear_spec
  have ⟨started, _, _⟩ := properB.dayOfYear_spec
  have ordered := marchStart_le (Int.add_one_le_iff.2 earlier)
  have nonneg : 0 ≤ monthStart (monthsFromMarch b.month.toNat) := by
    unfold monthStart monthsFromMarch
    have := properB.1
    split <;> omega
  unfold number
  omega

/-- Dates with the same year, month and day are the same. -/
theorem eq_of_parts_eq {a b : CivilDate} (year : a.year.toInt = b.year.toInt)
    (month : a.month.toNat = b.month.toNat) (day : a.day.toNat = b.day.toNat) : a = b := by
  cases a
  cases b
  rw [mk.injEq]
  exact ⟨Int32.toInt_inj.1 year, UInt32.toNat_inj.1 month, UInt32.toNat_inj.1 day⟩

/-- A date of the calendar is known by its number. -/
theorem eq_of_number_eq {a b : CivilDate} (properA : a.IsProper) (properB : b.IsProper)
    (same : a.number = b.number) : a = b := by
  have years : marchYear a.year.toInt a.month.toNat = marchYear b.year.toInt b.month.toNat := by
    refine Int.le_antisymm (Int.not_lt.1 fun later => ?_) (Int.not_lt.1 fun earlier => ?_)
    · exact absurd same (number_lt_of_marchYear_lt properB properA later).ne'
    · exact absurd same (number_lt_of_marchYear_lt properA properB earlier).ne
  have days : a.dayOfYear = b.dayOfYear := by
    unfold number at same
    rw [years] at same
    omega
  -- the month is the one whose days enclose the day of the year
  have months : monthsFromMarch a.month.toNat = monthsFromMarch b.month.toNat := by
    have ⟨startedA, endedA, _⟩ := properA.dayOfYear_spec
    have ⟨startedB, endedB, _⟩ := properB.dayOfYear_spec
    unfold monthStart at startedA endedA startedB endedB
    omega
  have month : a.month.toNat = b.month.toNat := by
    have ⟨firstA, lastA, _⟩ := properA
    have ⟨firstB, lastB, _⟩ := properB
    unfold monthsFromMarch at months
    split at months <;> split at months <;> omega
  have day : a.day.toNat = b.day.toNat := by
    unfold dayOfYear at days
    rw [month] at days
    omega
  have year : a.year.toInt = b.year.toInt := by
    unfold marchYear at years
    rw [month] at years
    split at years <;> omega
  exact eq_of_parts_eq year month day

/-- A day number that is computed from a date of the calendar is the number of the date. -/
theorem number_of_toDays {date : CivilDate} {days : Int32} (proper : date.IsProper)
    (counted : date.toDays = .ok days) : date.number = days.toInt := by
  obtain ⟨first, last, low, high⟩ := proper
  have short := daysInMonth_le date.year.toInt date.month.toNat
  -- the days from March on, for a year and a month that are counted from March
  have exact {year fromMarch : Int} (nonneg : 0 ≤ fromMarch)
      (counted : marchDays year fromMarch date.day.toInt32.toInt = .ok days) :
      days.toInt = marchStart year + (monthStart fromMarch + date.day.toNat - 1) - 719468 := by
    have ⟨sum, _⟩ := toInt_of_marchDays counted
    rw [Int.tdiv_eq_ediv_of_nonneg (by omega), toInt_toInt32 (by omega)] at sum
    unfold monthStart
    omega
  have beforeMarch : date.month ≤ 2 ↔ date.month.toNat ≤ 2 := UInt32.le_iff_toNat_le
  rw [toDays_eq, toInt_toInt32 (n := date.month) (by omega)] at counted
  unfold number dayOfYear marchYear monthsFromMarch
  -- January and February belong to the year before
  split at counted
  · obtain ⟨year, guarded, counted⟩ := bind_eq_ok_iff.1 counted
    obtain ⟨rfl, -⟩ := Overflow.guard_eq_ok_iff.1 guarded
    have early := beforeMarch.1 ‹_›
    rw [if_pos early, if_pos early]
    exact (exact (Int.add_nonneg (by omega) (by decide)) counted).symm
  · obtain ⟨fromMarch, guarded, counted⟩ := bind_eq_ok_iff.1 counted
    obtain ⟨rfl, -⟩ := Overflow.guard_eq_ok_iff.1 guarded
    have late := mt beforeMarch.2 ‹_›
    rw [if_neg late, if_neg late]
    exact (exact (by omega) counted).symm

/-- The date of a day number has that number. -/
theorem number_of_ofDays {days : Int32} {date : CivilDate} (found : ofDays days = .ok date) :
    date.number = days.toInt :=
  number_of_toDays (isProper_of_ofDays found) (toDays_of_ofDays found)

/-- The date of a day number is the only date of the calendar that has that number. -/
theorem ofDays_eq_ok_of_number {days : Int32} {date : CivilDate} (proper : date.IsProper)
    (same : date.number = days.toInt) (known : ∃ civil, ofDays days = .ok civil) :
    ofDays days = .ok date := by
  obtain ⟨civil, found⟩ := known
  rw [found, eq_of_number_eq proper (isProper_of_ofDays found)
    (same.trans (number_of_ofDays found).symm)]

/-- The date of a day number that is computed from a date of the calendar is that date. -/
theorem ofDays_of_toDays {date : CivilDate} {days : Int32} (proper : date.IsProper)
    (counted : date.toDays = .ok days) : ofDays days = .ok date :=
  ofDays_eq_ok_of_number proper (number_of_toDays proper counted) (exists_ofDays_of_toDays counted)

/-- The last day number is the one to which the days before 1970 can be added. -/
theorem exists_ofDays_iff {days : Int32} :
    (∃ date, ofDays days = .ok date) ↔ days.toInt ≤ 2147483647 - 719468 := by
  have least := days.le_toInt
  constructor
  · rintro ⟨date, found⟩
    obtain ⟨_, guarded, -⟩ := bind_eq_ok_iff.1 found
    have ⟨_, _, small⟩ := Overflow.guard_eq_ok_iff.1 guarded
    omega
  · intro small
    exact ⟨_, bind_eq_ok_iff.2 ⟨_, Overflow.guard_of_fits _ (by omega) (by omega), rfl⟩⟩

/-! ## The next date -/

/-- The next date of the calendar. -/
def next (date : CivilDate) : CivilDate :=
  if date.day.toNat < daysInMonth date.year.toInt date.month.toNat then
    { date with day := date.day + 1 }
  else if date.month < 12 then { date with month := date.month + 1, day := 1 }
  else { year := date.year + 1, month := 1, day := 1 }

/-- The date after one of the calendar: on the next day of the month, in the next month or in the
next year, of which the last has to be a number of 32 bits. -/
theorem IsProper.next_cases {date : CivilDate} (proper : date.IsProper)
    (small : date.year.toInt < 2147483647) :
    (date.day.toNat < daysInMonth date.year.toInt date.month.toNat ∧
      date.next.year.toInt = date.year.toInt ∧ date.next.month.toNat = date.month.toNat ∧
      date.next.day.toNat = date.day.toNat + 1) ∨
    (date.day.toNat = daysInMonth date.year.toInt date.month.toNat ∧ date.month.toNat < 12 ∧
      date.next.year.toInt = date.year.toInt ∧ date.next.month.toNat = date.month.toNat + 1 ∧
      date.next.day.toNat = 1) ∨
    (date.day.toNat = daysInMonth date.year.toInt date.month.toNat ∧ date.month.toNat = 12 ∧
      date.next.year.toInt = date.year.toInt + 1 ∧ date.next.month.toNat = 1 ∧
      date.next.day.toNat = 1) := by
  obtain ⟨first, last, low, high⟩ := proper
  have short := daysInMonth_le date.year.toInt date.month.toNat
  -- days and months are far from the end of the words
  have add_one {n : UInt32} (small : n.toNat ≤ 31) : (n + 1).toNat = n.toNat + 1 := by
    rw [UInt32.toNat_add, UInt32.toNat_one]
    exact Nat.mod_eq_of_lt (by omega)
  unfold next
  split
  · exact .inl ⟨‹_›, rfl, rfl, add_one (by omega)⟩
  · have ended : date.day.toNat = daysInMonth date.year.toInt date.month.toNat := by omega
    have december : date.month < 12 ↔ date.month.toNat < 12 := UInt32.lt_iff_toNat_lt
    split
    · exact .inr (.inl ⟨ended, december.1 ‹_›, rfl, add_one (by omega), rfl⟩)
    · refine .inr (.inr ⟨ended, ?_, ?_, rfl, rfl⟩)
      · have := mt december.2 ‹_›
        omega
      · have least := date.year.le_toInt
        rw [Int32.toInt_add, show (1 : Int32).toInt = 1 from rfl]
        exact Int.bmod_eq_of_le (by omega) (by omega)

/-- The day after a proper one is proper, as long as the year can grow. -/
theorem isProper_next {date : CivilDate} (proper : date.IsProper)
    (small : date.year.toInt < 2147483647) : date.next.IsProper := by
  have ⟨first, last, low, high⟩ := proper
  have := daysInMonth_pos date.next.year.toInt date.next.month.toNat
  unfold IsProper
  rcases proper.next_cases small with
    ⟨_, year, month, day⟩ | ⟨_, _, _, month, day⟩ | ⟨_, _, _, month, day⟩
  · rw [year, month, day]
    omega
  · omega
  · omega

/-- The next date has the next number. -/
theorem number_next {date : CivilDate} (proper : date.IsProper)
    (small : date.year.toInt < 2147483647) : date.next.number = date.number + 1 := by
  have ⟨first, last, _, _⟩ := proper
  unfold number dayOfYear
  rcases proper.next_cases small with
    ⟨_, year, month, day⟩ | ⟨ended, inYear, year, month, day⟩ | ⟨ended, december, year, month, day⟩
  · rw [year, month, day]
    omega
  · rw [year, month, day, ended]
    generalize date.month.toNat = ofDate at *
    by_cases february : ofDate = 2
    · -- the March year ends with February
      subst february
      have ended := marchStart_add_one (date.year.toInt - 1)
      rw [Int.sub_add_cancel] at ended
      show marchStart date.year.toInt + (0 + 1 - 1) - 719468 =
        marchStart (date.year.toInt - 1) + (monthStart 11 + _ - 1) - 719468 + 1
      omega
    · have later := monthStart_add_one first last february date.year.toInt
      have inMarchYear : marchYear date.year.toInt (ofDate + 1) =
          marchYear date.year.toInt ofDate ∧
          monthsFromMarch (ofDate + 1) = monthsFromMarch ofDate + 1 := by
        unfold marchYear monthsFromMarch
        split <;> split <;> omega
      rw [inMarchYear.1, inMarchYear.2]
      omega
  · rw [year, month, day, ended, december]
    -- the first of January is in the March year of the day before
    have later : monthStart 10 = monthStart 9 + daysInMonth date.year.toInt 12 := rfl
    show marchStart (date.year.toInt + 1 - 1) + (monthStart 10 + 1 - 1) - 719468 =
      marchStart date.year.toInt + (monthStart 9 + daysInMonth date.year.toInt 12 - 1) - 719468 + 1
    rw [Int.add_sub_cancel]
    omega

/-! ## The dates of day numbers -/

/-- The years of the calendar are far from the ends of the numbers of 32 bits. -/
theorem year_lt_of_ofDays {days : Int32} {date : CivilDate} (found : ofDays days = .ok date) :
    date.year.toInt < 2147483647 := by
  obtain ⟨era, day, year, rest, fromMarch, sum, dayRange, small, yearRange, -, -, -, -, hyear, -⟩ :=
    exists_of_ofDays found
  rw [hyear]
  split <;> omega

/-- One step of the calendar. -/
theorem ofDays_next {days later : Int32} {date : CivilDate} (found : ofDays days = .ok date)
    (step : later.toInt = days.toInt + 1) (last : later.toInt ≤ 2147483647 - 719468) :
    ofDays later = .ok date.next := by
  have proper := isProper_of_ofDays found
  have small := year_lt_of_ofDays found
  refine ofDays_eq_ok_of_number (isProper_next proper small) ?_ (exists_ofDays_iff.2 last)
  rw [number_next proper small, number_of_ofDays found, step]

/-- The calendar of the day numbers is the Gregorian one. It begins its count with 1970-01-01, and
every further day number has the date that comes next: the next day of the month, else the first of
the next month, else the first of January of the next year. -/
theorem ofDays_zero_and_succ :
    ofDays 0 = .ok { year := 1970, month := 1, day := 1 } ∧
      ∀ days : Int32, days.toInt + 1 ≤ 2147483647 - 719468 →
        ∃ date, ofDays days = .ok date ∧ date.year.toInt + 1 ≤ 2147483647 ∧
          ofDays (days + 1) = .ok date.next := by
  refine ⟨by decide, fun days last => ?_⟩
  have least := days.le_toInt
  have step : (days + 1).toInt = days.toInt + 1 := by
    rw [Int32.toInt_add, show (1 : Int32).toInt = 1 from rfl]
    exact Int.bmod_eq_of_le (by omega) (by omega)
  obtain ⟨date, found⟩ := exists_ofDays_iff.2 (show days.toInt ≤ _ by omega)
  exact ⟨date, found, year_lt_of_ofDays found, ofDays_next found step (by omega)⟩

/-- The year zero has a leap day. -/
theorem ofDays_zero_and_succ_leapDay :
    ofDays (-719470) = .ok { year := 0, month := 2, day := 28 } ∧
      (-719470 : Int32).toInt + 1 ≤ 2147483647 - 719468 ∧
      ofDays (-719470 + 1) = .ok { year := 0, month := 2, day := 29 } := by
  have bound : (-719470 : Int32).toInt + 1 ≤ 2147483647 - 719468 := by decide
  have today : ofDays (-719470) = .ok { year := 0, month := 2, day := 28 } := by decide
  obtain ⟨date, found, -, tomorrow⟩ := ofDays_zero_and_succ.2 _ bound
  obtain rfl := Except.ok.inj (found.symm.trans today)
  exact ⟨today, bound, tomorrow⟩

end PlanCompiler.CivilDate
