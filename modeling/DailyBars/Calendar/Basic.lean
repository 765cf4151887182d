import DailyBars.Day.List

/-!
# Trading calendars

A calendar says which days are sessions and lists the sessions of a closed range of days. The
store asks nothing else of it. A calendar is lawful when its two answers agree: the list of a range
is ascending, without repeats, and holds exactly the sessions of the range.
-/

namespace DailyBars

/-- The sessions that a store is aligned to. -/
structure Calendar where
  name : String
  isSession : Day → Bool
  /-- The sessions of the closed range between two days. -/
  sessionsIn : Day → Day → List Day

namespace Calendar

/-- The number of sessions of a closed range. -/
def sessionCount (calendar : Calendar) (start stop : Day) : Nat :=
  (calendar.sessionsIn start stop).length

/-- The listed sessions of every range are exactly its sessions, in ascending order and once
each. -/
structure IsLawful (calendar : Calendar) : Prop where
  ascending : ∀ start stop, (calendar.sessionsIn start stop).Pairwise (· < ·)
  mem_iff : ∀ start stop day, day ∈ calendar.sessionsIn start stop ↔
    start ≤ day ∧ day ≤ stop ∧ calendar.isSession day = true

/-- The calendar of an ascending list of sessions. -/
def ofSessions (name : String) (sessions : DayList) : Calendar where
  name := name
  isSession := sessions.contains
  sessionsIn := sessions.between

/-- The calendar that lists the days of `days` in the order given, repeats included. It is lawful
only if `days` is ascending. -/
def listing (name : String) (days : List Day) : Calendar where
  name := name
  isSession day := days.contains day
  sessionsIn start stop := days.filter fun day ↦ start ≤ day && day ≤ stop

end Calendar

end DailyBars
