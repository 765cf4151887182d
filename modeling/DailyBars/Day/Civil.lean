import DailyBars.Day.Basic

/-!
# Civil dates

A civil date is a year, a month and a day of the month. Days are numbered through years that start
in March, so that the leap day is the last of its year: a number splits into 400-year eras,
centuries, four-year cycles, years and days, each part from the rest of the one before.
`number_ofNumber` says that the two directions undo each other.
-/

namespace DailyBars

/-- A year, a month from 1 and a day of the month from 1. -/
@[ext]
structure CivilDate where
  year : Int
  month : Nat
  day : Nat
deriving DecidableEq

namespace CivilDate

def isLeapYear (year : Int) : Bool :=
  year % 4 == 0 && (year % 100 != 0 || year % 400 == 0)

/-- The number of days of a month; none for a number that is no month. -/
def daysInMonth (year : Int) (month : Nat) : Nat :=
  match month with
  | 1 | 3 | 5 | 7 | 8 | 10 | 12 => 31
  | 4 | 6 | 9 | 11 => 30
  | 2 => if isLeapYear year then 29 else 28
  | _ => 0

/-- Whether the date is in the calendar. -/
def isValid (date : CivilDate) : Bool :=
  1 ≤ date.day && date.day ≤ daysInMonth date.year date.month

/-- Days from the first of March of the year 0 to the first of March of a year. -/
def daysBeforeYear (marchYear : Int) : Int :=
  let yearOfEra := marchYear % 400
  146097 * (marchYear / 400) + 36524 * (yearOfEra / 100) + 1461 * (yearOfEra % 100 / 4) +
    365 * (yearOfEra % 4)

/-- The year, counted from the first of March of the year 0, that holds a number of days. -/
def yearOfDays (days : Int) : Int :=
  let dayOfEra := days % 146097
  let century := min (dayOfEra / 36524) 3
  let dayOfCentury := dayOfEra - 36524 * century
  let cycle := dayOfCentury / 1461
  let dayOfCycle := dayOfCentury - 1461 * cycle
  400 * (days / 146097) + 100 * century + 4 * cycle + min (dayOfCycle / 365) 3

/-- Days from the first of March to the first of a month counted from March. -/
def daysBeforeMonth (marchMonth : Int) : Int :=
  (153 * marchMonth + 2) / 5

/-- Days since 1970-01-01. -/
def number (date : CivilDate) : Int :=
  let marchYear := if date.month ≤ 2 then date.year - 1 else date.year
  let marchMonth : Int := if date.month ≤ 2 then date.month + 9 else date.month - 3
  daysBeforeYear marchYear + daysBeforeMonth marchMonth + (date.day - 1) - 719468

/-- The date that lies `dayOfYear` days after the first of March of a year. -/
def ofMarch (marchYear dayOfYear : Int) : CivilDate :=
  let marchMonth := (5 * dayOfYear + 2) / 153
  { year := if marchMonth < 10 then marchYear else marchYear + 1
    month := (if marchMonth < 10 then marchMonth + 3 else marchMonth - 9).toNat
    day := (dayOfYear - daysBeforeMonth marchMonth + 1).toNat }

/-- The date that lies `number` days after 1970-01-01. -/
def ofNumber (number : Int) : CivilDate :=
  let days := number + 719468
  ofMarch (yearOfDays days) (days - daysBeforeYear (yearOfDays days))

/-- The parts of a number of days: eras, centuries, four-year cycles, years and days. -/
theorem yearOfDays_eq (days : Int) : ∃ era century cycle year rest : Int,
    0 ≤ century ∧ century ≤ 3 ∧ 0 ≤ cycle ∧ cycle ≤ 24 ∧ 0 ≤ year ∧ year ≤ 3 ∧
      0 ≤ rest ∧ rest < 366 ∧
      yearOfDays days = 400 * era + 100 * century + 4 * cycle + year ∧
      days = 146097 * era + 36524 * century + 1461 * cycle + 365 * year + rest := by
  refine ⟨_, _, _, _, days % 146097 - 36524 * min (days % 146097 / 36524) 3 -
    1461 * ((days % 146097 - 36524 * min (days % 146097 / 36524) 3) / 1461) -
    365 * min ((days % 146097 - 36524 * min (days % 146097 / 36524) 3 -
      1461 * ((days % 146097 - 36524 * min (days % 146097 / 36524) 3) / 1461)) / 365) 3,
    ?_, ?_, ?_, ?_, ?_, ?_, ?_, ?_, rfl, ?_⟩ <;> omega

theorem daysBeforeYear_eq {era century cycle year : Int} (hcentury : 0 ≤ century ∧ century ≤ 3)
    (hcycle : 0 ≤ cycle ∧ cycle ≤ 24) (hyear : 0 ≤ year ∧ year ≤ 3) :
    daysBeforeYear (400 * era + 100 * century + 4 * cycle + year) =
      146097 * era + 36524 * century + 1461 * cycle + 365 * year := by
  have hyearOfEra : (400 * era + 100 * century + 4 * cycle + year) % 400 =
      100 * century + 4 * cycle + year := by omega
  have hera : (400 * era + 100 * century + 4 * cycle + year) / 400 = era := by omega
  have hhundreds : (100 * century + 4 * cycle + year) / 100 = century := by omega
  have hfours : (100 * century + 4 * cycle + year) % 100 / 4 = cycle := by omega
  have hones : (100 * century + 4 * cycle + year) % 4 = year := by omega
  simp only [daysBeforeYear, hyearOfEra, hera, hhundreds, hfours, hones]

/-- A number of days falls within the year that holds it. -/
theorem daysBeforeYear_yearOfDays (days : Int) :
    daysBeforeYear (yearOfDays days) ≤ days ∧
      days < daysBeforeYear (yearOfDays days) + 366 := by
  obtain ⟨era, century, cycle, year, rest, h₁, h₂, h₃, h₄, h₅, h₆, h₇, h₈, hyear, hdays⟩ :=
    yearOfDays_eq days
  rw [hyear, daysBeforeYear_eq ⟨h₁, h₂⟩ ⟨h₃, h₄⟩ ⟨h₅, h₆⟩]
  omega

theorem number_ofMarch (marchYear : Int) {dayOfYear : Int} (hlow : 0 ≤ dayOfYear)
    (hhigh : dayOfYear < 366) :
    (ofMarch marchYear dayOfYear).number = daysBeforeYear marchYear + dayOfYear - 719468 := by
  obtain ⟨month, hmonth⟩ : ∃ month, month = (5 * dayOfYear + 2) / 153 := ⟨_, rfl⟩
  have hmonths : 0 ≤ month ∧ month ≤ 11 := by omega
  have hfirst : daysBeforeMonth month ≤ dayOfYear := by unfold daysBeforeMonth; omega
  unfold ofMarch number
  rw [← hmonth]
  dsimp only
  by_cases h : month < 10
  · have hlate : ¬(month + 3).toNat ≤ 2 := by omega
    have hback : ((month + 3).toNat : Int) - 3 = month := by omega
    simp only [h, if_true, hlate, if_false, hback]
    omega
  · have hearly : (month - 9).toNat ≤ 2 := by omega
    have hback : ((month - 9).toNat : Int) + 9 = month := by omega
    have hyearBack : marchYear + 1 - 1 = marchYear := by omega
    simp only [h, if_false, hearly, if_true, hback, hyearBack]
    omega

/-- A date found for a number has that number. -/
theorem number_ofNumber (n : Int) : (ofNumber n).number = n := by
  have hyear := daysBeforeYear_yearOfDays (n + 719468)
  rw [ofNumber, number_ofMarch _ (by omega) (by omega)]
  omega

end CivilDate

/-- The civil date of a day. -/
def Day.civil (day : Day) : CivilDate :=
  CivilDate.ofNumber day.number

/-- The day of a civil date, if the date is in the calendar and in the range of days. -/
def Day.ofCivil? (date : CivilDate) : Option Day :=
  if date.isValid then Day.ofNumber? date.number else none

theorem Day.civil_injective {a b : Day} (h : a.civil = b.civil) : a = b := by
  have := congrArg CivilDate.number h
  simp only [Day.civil, CivilDate.number_ofNumber] at this
  exact Day.ext this

end DailyBars
