import PlanCompiler.Numeral

/-!
# Calendar dates in 32 bit arithmetic

Days are counted from 1970-01-01 in the proleptic Gregorian calendar. The conversions between
day numbers and civil dates follow the era method: years start in March, so that the leap day is
the last day of a year, and 400 years, an era, have 146097 days.

All intermediate results are 32 bit numbers. A result that does not fit stops the computation
with the operation that overflowed, in the order in which the operations are carried out.

A written date has the year in at least four places, and month and day in two.
-/

namespace PlanCompiler

/-- The arithmetic operation whose result did not fit. -/
inductive Overflow where
  | add
  | subtract
  | multiply
deriving DecidableEq, Repr

namespace Overflow

/-- The exact result of an operation if it is a signed number of 32 bits. -/
def guard (operation : Overflow) (exact : Int) : Except Overflow Int :=
  if -0x80000000 ≤ exact ∧ exact < 0x80000000 then .ok exact else .error operation

end Overflow

/-- A date by year, month and day of the month. -/
structure CivilDate where
  /-- Year, with a year zero before year one. -/
  year : Int32
  /-- Month, January being 1. -/
  month : UInt32
  /-- Day of the month, counted from 1. -/
  day : UInt32
deriving DecidableEq, Repr

namespace CivilDate

/-- Every fourth year has a leap day, but of the full centuries only every fourth. -/
def isLeapYear (year : Int) : Bool :=
  (year % 4 = 0 ∧ year % 100 ≠ 0) ∨ year % 400 = 0

/-- Number of days of a month; months out of range count as February. -/
def daysInMonth (year : Int) (month : Nat) : Nat :=
  if month ∈ [1, 3, 5, 7, 8, 10, 12] then 31
  else if month ∈ [4, 6, 9, 11] then 30
  else if isLeapYear year then 29
  else 28

/-- The day number of a date. Month and day are taken as signed words, and a month beyond
December counts on from March. -/
def toDays (date : CivilDate) : Except Overflow Int32 := do
  let month := date.month.toInt32.toInt
  let (year, fromMarch) ←
    if date.month ≤ 2 then do
      pure (← Overflow.subtract.guard (date.year.toInt - 1), month + 9)
    else do
      pure (date.year.toInt, ← Overflow.subtract.guard (month - 3))
  let era := year / 400
  let yearOfEra := year % 400
  -- Counted from March, the months before month `m` have `(153 * m + 2) / 5` days.
  let scaled ← Overflow.multiply.guard (153 * fromMarch)
  let shifted ← Overflow.add.guard (scaled + 2)
  let counted ← Overflow.add.guard (shifted.tdiv 5 + date.day.toInt32.toInt)
  let dayOfYear ← Overflow.subtract.guard (counted - 1)
  let dayOfEra ← Overflow.add.guard (yearOfEra * 365 + yearOfEra / 4 - yearOfEra / 100 + dayOfYear)
  let eraStart ← Overflow.multiply.guard (era * 146097)
  let fromYearZero ← Overflow.add.guard (eraStart + dayOfEra)
  let days ← Overflow.subtract.guard (fromYearZero - 719468)
  return Int32.ofInt days

/-- The date of a day number. -/
def ofDays (days : Int32) : Except Overflow CivilDate := do
  let fromYearZero ← Overflow.add.guard (days.toInt + 719468)
  let era := fromYearZero / 146097
  let dayOfEra := fromYearZero % 146097
  -- Leap days are taken out first, so that every year has 365 days.
  let yearOfEra := (dayOfEra - dayOfEra / 1460 + dayOfEra / 36524 - dayOfEra / 146096) / 365
  let dayOfYear := dayOfEra - (365 * yearOfEra + yearOfEra / 4 - yearOfEra / 100)
  let fromMarch := (5 * dayOfYear + 2) / 153
  -- January and February belong to the year that starts in the March before.
  let day := dayOfYear - (153 * fromMarch + 2) / 5 + 1
  let month := if fromMarch < 10 then fromMarch + 3 else fromMarch - 9
  let year := yearOfEra + era * 400 + (if month ≤ 2 then 1 else 0)
  return {
    year := Int32.ofInt year
    month := UInt32.ofNat month.toNat
    day := UInt32.ofNat day.toNat }

/-- The month is one of the twelve and the day is one of its days. -/
def IsProper (date : CivilDate) : Prop :=
  1 ≤ date.month.toNat ∧ date.month.toNat ≤ 12 ∧
    1 ≤ date.day.toNat ∧ date.day.toNat ≤ daysInMonth date.year.toInt date.month.toNat

instance (date : CivilDate) : Decidable date.IsProper :=
  inferInstanceAs (Decidable (_ ∧ _ ∧ _ ∧ _))

/-- The text of a date, such as `1998-09-02`. -/
def text (date : CivilDate) : String :=
  Numeral.signedWidth 4 date.year.toInt ++ "-" ++
    Numeral.zeroFill 2 (toString date.month.toNat) ++ "-" ++
    Numeral.zeroFill 2 (toString date.day.toNat)

/-- The characters before the first hyphen, and those after it if there is one. -/
def cutAtHyphen (chars : List Char) : List Char × Option (List Char) :=
  (chars.takeWhile (· ≠ '-'),
    match chars.dropWhile (· ≠ '-') with
    | [] => none
    | _ :: rest => some rest)

/-- Reads a date of ten bytes: year, month and day as numerals with hyphens between them. Any
numeral is taken, also one with a plus sign, as long as the whole has the right length and the
day exists. -/
def ofText? (text : String) : Option CivilDate := do
  let (year, afterYear) := cutAtHyphen text.toList
  let (month, afterMonth) := cutAtHyphen (← afterYear)
  let date : CivilDate :=
    { year := ← Numeral.int32? year
      month := ← Numeral.uint32? month
      day := ← Numeral.uint32? (← afterMonth) }
  guard (text.utf8ByteSize = 10 ∧ date.IsProper)
  return date

end CivilDate

namespace Calendar

/-- The text of the date of a day number. -/
def dateText (days : Int32) : Except Overflow String :=
  return (← CivilDate.ofDays days).text

/-- The day number of a written date. -/
def parseDate? (text : String) : Option Int32 := do
  (← CivilDate.ofText? text).toDays.toOption

end Calendar

end PlanCompiler
