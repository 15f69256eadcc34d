import PlanCompiler.Proofs.Calendar.Inverse

/-!
# Texts that are read as dates

A date is written `YYYY-MM-DD`. A text of this form is read exactly if it is a date of the calendar,
and what is read is its day number. But other texts are read as well: of year, month and day only
the length of all three together is checked, so that one may have a digit more if another one has a
digit less, and each may have a plus sign.

## Main definitions

* `CivilDate.IsWritten`: year, month and day are written with hyphens between them;
* `CivilDate.IsSpelled`: they are written with four, two and two digits;
* `CivilDate.IsNamedBy`: they are written as numerals that fill ten bytes with the hyphens.

## Main results

* `CivilDate.ofText?_eq_some_iff`: the dates that are read;
* `CivilDate.isSpelled_iff`: the only text that spells a date;
* `CivilDate.IsNamedBy.exists_toDays`: dates that are read have day numbers;
* `Calendar.parse_named_and_spelled`: the texts that are read, and those of the right form.
-/

namespace PlanCompiler

namespace CivilDate

/-! ## Three numbers with hyphens between them -/

/-- How a text is cut depends on whether it starts with a hyphen. -/
theorem cutAtHyphen_cons (c : Char) (rest : List Char) :
    cutAtHyphen (c :: rest) =
      if c = '-' then ([], some rest)
      else (c :: (cutAtHyphen rest).1, (cutAtHyphen rest).2) := by
  unfold cutAtHyphen
  by_cases hyphen : c = '-'
  · simp [hyphen]
  · simp [hyphen]

/-- What is cut at the first hyphen. -/
theorem cutAtHyphen_eq_iff {chars before after : List Char} :
    cutAtHyphen chars = (before, some after) ↔ '-' ∉ before ∧ chars = before ++ '-' :: after := by
  constructor
  · intro cut
    -- the part in front of the hyphen is not fixed: it gets shorter by a character
    induction chars generalizing before with
    | nil => cases (Prod.mk.inj cut).2
    | cons c rest ih =>
      rw [cutAtHyphen_cons] at cut
      split at cut
      · rename_i hyphen
        obtain ⟨rfl, rfl⟩ : [] = before ∧ rest = after := by simpa using cut
        exact ⟨List.not_mem_nil, by rw [hyphen, List.nil_append]⟩
      · rename_i other
        obtain ⟨rfl, later⟩ := Prod.mk.inj cut
        obtain ⟨unhyphened, whole⟩ := ih (Prod.ext rfl later)
        refine ⟨?_, congrArg (c :: ·) whole⟩
        rw [List.mem_cons, not_or]
        exact ⟨fun equal => other equal.symm, unhyphened⟩
  · rintro ⟨unhyphened, rfl⟩
    exact cutAtHyphen_append unhyphened

/-- There is only one first hyphen. -/
theorem eq_of_append_hyphen_eq {before after before' after' : List Char} (first : '-' ∉ before)
    (first' : '-' ∉ before') (same : before ++ '-' :: after = before' ++ '-' :: after') :
    before = before' ∧ after = after' := by
  have cut := cutAtHyphen_eq_iff.2 ⟨first', same⟩
  rw [cutAtHyphen_append first] at cut
  obtain ⟨fronts, backs⟩ := Prod.mk.inj cut
  exact ⟨fronts, Option.some.inj backs⟩

/-- Year, month and day are written with hyphens between them. The form in which each is written
depends on a number of digits. -/
def IsWritten (form : Nat → List Char → Nat → Prop) (date : CivilDate) (chars : List Char) : Prop :=
  0 ≤ date.year.toInt ∧ ∃ year month day, chars = year ++ '-' :: (month ++ '-' :: day) ∧
    form 4 year date.year.toInt.natAbs ∧ form 2 month date.month.toNat ∧ form 2 day date.day.toNat

/-- A text spells a date `YYYY-MM-DD`. -/
def IsSpelled (date : CivilDate) (text : String) : Prop :=
  date.IsWritten Numeral.HasDigits text.toList

/-- A text of ten bytes names a date by any three numerals. -/
def IsNamedBy (date : CivilDate) (text : String) : Prop :=
  text.utf8ByteSize = 10 ∧ date.IsWritten (fun _ => Numeral.Spells) text.toList

/-- A numeral has no hyphen. -/
theorem hyphen_notMem_of_spells {numeral : List Char} {n : Nat}
    (spelled : Numeral.Spells numeral n) : '-' ∉ numeral := by
  intro member
  rcases spelled.isDigit_or_plus member with digit | plus
  · exact absurd digit (by decide)
  · exact absurd plus (by decide)

/-- Exactly the dates of the calendar that are named by ten bytes are read. -/
theorem ofText?_eq_some_iff {text : String} {date : CivilDate} :
    ofText? text = some date ↔ date.IsNamedBy text ∧ date.IsProper := by
  constructor
  · intro read
    -- the steps of the reader: a year, a month, a hyphen, a day, and the check of the whole
    obtain ⟨chars, afterYear, read⟩ := Option.bind_eq_some_iff.1 read
    obtain ⟨yearNumber, readYear, read⟩ := Option.bind_eq_some_iff.1 read
    obtain ⟨monthNumber, readMonth, read⟩ := Option.bind_eq_some_iff.1 read
    obtain ⟨day, afterMonth, read⟩ := Option.bind_eq_some_iff.1 read
    obtain ⟨dayNumber, readDay, read⟩ := Option.bind_eq_some_iff.1 read
    obtain ⟨_, checked, same⟩ := Option.bind_eq_some_iff.1 read
    obtain ⟨ten, proper⟩ : text.utf8ByteSize = 10 ∧
        IsProper { year := yearNumber, month := monthNumber, day := dayNumber } := by
      simpa [guard] using checked
    obtain rfl := Option.some.inj same
    obtain ⟨unhyphened, whole⟩ := cutAtHyphen_eq_iff.1 (Prod.ext rfl afterYear)
    obtain ⟨-, rest⟩ := cutAtHyphen_eq_iff.1 (Prod.ext rfl afterMonth)
    obtain ⟨nonneg, yearSpelled⟩ := (Numeral.int32?_eq_some_iff unhyphened).1 readYear
    exact ⟨⟨ten, nonneg, _, _, day, whole.trans (congrArg (_ ++ '-' :: ·) rest), yearSpelled,
      Numeral.uint32?_eq_some_iff.1 readMonth, Numeral.uint32?_eq_some_iff.1 readDay⟩, proper⟩
  · rintro ⟨⟨ten, nonneg, year, month, day, whole, yearSpelled, monthSpelled, daySpelled⟩, proper⟩
    have unhyphened := hyphen_notMem_of_spells yearSpelled
    unfold ofText?
    -- the hyphens are found again since no numeral has one
    rw [whole, cutAtHyphen_append unhyphened]
    dsimp only [Option.bind_eq_bind, Option.bind_some]
    rw [cutAtHyphen_append (hyphen_notMem_of_spells monthSpelled),
      (Numeral.int32?_eq_some_iff unhyphened).2 ⟨nonneg, yearSpelled⟩,
      Numeral.uint32?_eq_some_iff.2 monthSpelled]
    dsimp only [Option.bind_some]
    rw [Numeral.uint32?_eq_some_iff.2 daySpelled]
    simp [guard, ten, proper]

/-- The bytes of three numerals with hyphens between them. -/
theorem utf8ByteSize_of_spells {text : String} {year month day : List Char} {y m d : Nat}
    (whole : text.toList = year ++ '-' :: (month ++ '-' :: day))
    (spelledYear : Numeral.Spells year y) (spelledMonth : Numeral.Spells month m)
    (spelledDay : Numeral.Spells day d) :
    text.utf8ByteSize = year.length + month.length + day.length + 2 := by
  -- numerals and hyphens consist of characters that take one byte each
  have single {numeral : List Char} {n : Nat} (spelled : Numeral.Spells numeral n) :
      ∀ c ∈ numeral, c.utf8Size = 1 := by
    intro c member
    rcases spelled.isDigit_or_plus member with digit | rfl
    · exact Numeral.utf8Size_of_isDigit digit
    · rfl
  have all : ∀ c ∈ text.toList, c.utf8Size = 1 := by
    rw [whole]
    simp only [List.forall_mem_append, List.forall_mem_cons]
    exact ⟨single spelledYear, rfl, single spelledMonth, rfl, single spelledDay⟩
  rw [Numeral.utf8ByteSize_eq_length all, whole]
  simp only [List.length_append, List.length_cons]
  omega

/-- A text that spells a date names it. -/
theorem IsSpelled.isNamedBy {date : CivilDate} {text : String} (spelled : date.IsSpelled text) :
    date.IsNamedBy text := by
  obtain ⟨nonneg, year, month, day, whole, ofYear, ofMonth, ofDay⟩ := spelled
  refine ⟨?_, nonneg, year, month, day, whole, ofYear.spells, ofMonth.spells, ofDay.spells⟩
  rw [utf8ByteSize_of_spells whole ofYear.spells ofMonth.spells ofDay.spells, ofYear.length,
    ofMonth.length, ofDay.length]

/-- A text names one date only. -/
theorem IsNamedBy.unique {a b : CivilDate} {text : String} (namesA : a.IsNamedBy text)
    (namesB : b.IsNamedBy text) : a = b := by
  obtain ⟨-, nonnegA, yearA, monthA, dayA, wholeA, ofYearA, ofMonthA, ofDayA⟩ := namesA
  obtain ⟨-, nonnegB, yearB, monthB, dayB, wholeB, ofYearB, ofMonthB, ofDayB⟩ := namesB
  -- the parts are those between the hyphens
  obtain ⟨rfl, rest⟩ := eq_of_append_hyphen_eq (hyphen_notMem_of_spells ofYearA)
    (hyphen_notMem_of_spells ofYearB) (wholeA.symm.trans wholeB)
  obtain ⟨rfl, rfl⟩ := eq_of_append_hyphen_eq (hyphen_notMem_of_spells ofMonthA)
    (hyphen_notMem_of_spells ofMonthB) rest
  have year : a.year.toInt = b.year.toInt := by
    have := ofYearA.unique ofYearB
    omega
  exact eq_of_parts_eq year (ofMonthA.unique ofMonthB) (ofDayA.unique ofDayB)

/-- The hyphens, the month and the day leave six bytes for the year. -/
theorem IsNamedBy.year_lt {date : CivilDate} {text : String} (named : date.IsNamedBy text) :
    date.year.toInt < 1000000 := by
  obtain ⟨ten, nonneg, year, month, day, whole, ofYear, ofMonth, ofDay⟩ := named
  rw [utf8ByteSize_of_spells whole ofYear ofMonth ofDay] at ten
  -- two hyphens, and one character at least for the month and for the day
  have := List.length_pos_iff.2 ofMonth.ne_nil
  have := List.length_pos_iff.2 ofDay.ne_nil
  have small := Nat.lt_of_lt_of_le ofYear.lt
    (Nat.pow_le_pow_right (by decide) (show year.length ≤ 6 by omega))
  omega

/-- A date that is named by a text has a day number, if it is one of the calendar: its year has six
digits at most. -/
theorem IsNamedBy.exists_toDays {date : CivilDate} {text : String} (named : date.IsNamedBy text)
    (proper : date.IsProper) : ∃ days, date.toDays = .ok days := by
  have bound := named.year_lt
  have nonneg := named.2.1
  -- a year has less than 366 days on average, which leaves the number far below the last one
  have range : -0x80000000 ≤ date.number ∧ date.number ≤ 2147483647 - 719468 := by
    obtain ⟨first, last, low, high⟩ := proper
    have short := daysInMonth_le date.year.toInt date.month.toNat
    unfold number dayOfYear marchStart monthStart marchYear monthsFromMarch
    split <;> omega
  have exact : (Int32.ofInt date.number).toInt = date.number :=
    Int32.toInt_ofInt_of_le range.1 (by omega)
  have known := exists_ofDays_iff.2 (exact.symm ▸ range.2)
  exact ⟨_, toDays_of_ofDays (ofDays_eq_ok_of_number proper exact.symm known)⟩

/-- The text that spells a date is the one that is printed, if the year has four digits. -/
theorem isSpelled_iff {date : CivilDate} {text : String} (proper : date.IsProper) :
    date.IsSpelled text ↔ text = date.text ∧ 0 ≤ date.year.toInt ∧ date.year.toInt ≤ 9999 := by
  obtain ⟨-, month, -, day⟩ := proper
  have short := daysInMonth_le date.year.toInt date.month.toNat
  -- month and day have two digits at most, so filling them up to two cuts nothing off
  constructor
  · intro ⟨nonneg, _, _, _, whole, yearDigits, monthDigits, dayDigits⟩
    have ⟨yearWritten, small⟩ := (Numeral.hasDigits_iff (by decide)).1 yearDigits
    have ⟨monthWritten, _⟩ := (Numeral.hasDigits_iff (by decide)).1 monthDigits
    have ⟨dayWritten, _⟩ := (Numeral.hasDigits_iff (by decide)).1 dayDigits
    rw [yearWritten, monthWritten, dayWritten, ← toList_text nonneg] at whole
    exact ⟨String.toList_inj.1 whole, nonneg, by omega⟩
  · intro ⟨written, nonneg, small⟩
    rw [written]
    exact ⟨nonneg, _, _, _, toList_text nonneg,
      (Numeral.hasDigits_iff (by decide)).2 ⟨rfl, by omega⟩,
      (Numeral.hasDigits_iff (by decide)).2 ⟨rfl, by omega⟩,
      (Numeral.hasDigits_iff (by decide)).2 ⟨rfl, by omega⟩⟩

end CivilDate

namespace Calendar

/-- A text is read as a day exactly if it names a proper date of that day. -/
theorem parseDate?_eq_some_iff {text : String} {days : Int32} :
    parseDate? text = some days ↔
      ∃ date : CivilDate, date.IsNamedBy text ∧ date.IsProper ∧ date.toDays = .ok days := by
  refine Option.bind_eq_some_iff.trans (exists_congr fun date => ?_)
  rw [CivilDate.ofText?_eq_some_iff, toOption_eq_some_iff, and_assoc]

/-- The day number of a text is that of the only date that is named by it, which is a date of the
calendar. Every date of the calendar that is named has a day number. If the text has the form
`YYYY-MM-DD`, the date that is read is the one it spells; and exactly then the text is printed for
the day number again. -/
theorem parse_named_and_spelled (text : String) :
    (∀ days, parseDate? text = some days ↔
      ∃ date : CivilDate, date.IsNamedBy text ∧ date.IsProper ∧ date.toDays = .ok days) ∧
    (∀ date : CivilDate, date.IsNamedBy text → date.IsProper → ∃ days, date.toDays = .ok days) ∧
    ((∃ date : CivilDate, date.IsSpelled text) → ∀ days, parseDate? text = some days ↔
      ∃ date : CivilDate, date.IsSpelled text ∧ date.IsProper ∧ date.toDays = .ok days) ∧
    ∀ days, parseDate? text = some days →
      (dateText days = .ok text ↔ ∃ date : CivilDate, date.IsSpelled text) := by
  refine ⟨fun days => parseDate?_eq_some_iff, fun date => CivilDate.IsNamedBy.exists_toDays,
    fun ⟨spelled, spells⟩ days => ?_, fun days read => ?_⟩
  -- a text names at most one date, so the one that is read is the one that it spells
  · rw [parseDate?_eq_some_iff]
    constructor
    · rintro ⟨date, named, proper, counted⟩
      obtain rfl := named.unique spells.isNamedBy
      exact ⟨date, spells, proper, counted⟩
    · rintro ⟨date, spells, proper, counted⟩
      exact ⟨date, spells.isNamedBy, proper, counted⟩
  -- the date that is read is printed again; only its own spelling is the same text
  · obtain ⟨date, named, proper, counted⟩ := parseDate?_eq_some_iff.1 read
    have printed : dateText days = .ok date.text := by
      rw [dateText, CivilDate.ofDays_of_toDays proper counted]
      rfl
    rw [printed, Except.ok.injEq]
    constructor
    · intro same
      rw [← same] at named ⊢
      have nonneg := named.2.1
      exact ⟨date, (CivilDate.isSpelled_iff proper).2
        ⟨rfl, nonneg, (CivilDate.utf8ByteSize_text nonneg proper).1 named.1⟩⟩
    · rintro ⟨spelled, spells⟩
      obtain rfl := named.unique spells.isNamedBy
      exact ((CivilDate.isSpelled_iff proper).1 spells).1.symm

/-- Not only texts of the form `YYYY-MM-DD` are read: the plus sign takes the place of a digit. -/
theorem not_parse_iff_isSpelled :
    ¬ ∀ text days, parseDate? text = some days ↔
      ∃ date : CivilDate, date.IsSpelled text ∧ date.IsProper ∧ date.toDays = .ok days := by
  intro grammar
  have found : (parseDate? "+998-09-02").isSome = true := by decide +kernel
  obtain ⟨days, read⟩ := Option.isSome_iff_exists.1 found
  obtain ⟨date, spelled, proper, -⟩ := (grammar _ _).1 read
  obtain ⟨written, -⟩ := (CivilDate.isSpelled_iff proper).1 spelled
  have plus : '+' ∈ date.text.toList := by
    rw [← written]
    decide
  exact absurd (CivilDate.isDigit_or_hyphen_of_mem_text plus) (by decide)

end Calendar

end PlanCompiler
