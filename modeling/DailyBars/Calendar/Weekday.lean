import DailyBars.Calendar.Basic

/-!
# The weekday calendar

Sessions are the days from Monday to Friday that are not holidays. A range is walked day by day,
each day being listed before the step to the next one; the last day of all has no next day and so
is never listed.
-/

namespace DailyBars

/-- The days from `start` to `stop`, both included, that have a day after them. -/
def Day.upTo (start stop : Day) : List Day :=
  let last := min stop.number (Day.greatest.number - 1)
  (List.range (last + 1 - start.number).toNat).filterMap fun (i : Nat) ↦
    Day.ofNumber? (start.number + i)

/-- Monday to Friday without a set of holidays. -/
structure WeekdayRule where
  name : String
  holidays : DayList

namespace WeekdayRule

/-- The rule with the days of a list as holidays. -/
def ofHolidays (name : String) (holidays : List Day) : WeekdayRule :=
  ⟨name, DayList.ofList holidays⟩

def isSession (rule : WeekdayRule) (day : Day) : Bool :=
  !day.isWeekend && !rule.holidays.contains day

/-- The sessions of a closed range. -/
def sessionsIn (rule : WeekdayRule) (start stop : Day) : List Day :=
  (start.upTo stop).filter rule.isSession

/-- The calendar of the rule. -/
def calendar (rule : WeekdayRule) : Calendar where
  name := rule.name
  isSession := rule.isSession
  sessionsIn := rule.sessionsIn

end WeekdayRule

end DailyBars
