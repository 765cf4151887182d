import DailyBars.Bar
import DailyBars.Calendar.Basic
import DailyBars.Error

/-!
# Consistency with a calendar

A list of days is consistent with a calendar when it holds exactly the sessions between its first
and its last day. A segment may extend a stored span when exactly two sessions lie in the range
from its boundary day to the stored boundary day, namely these two days.
-/

namespace DailyBars

/-- What a comparison of days with the sessions between the first and the last of them finds. -/
structure SessionReport where
  isConsistent : Bool
  /-- The number of sessions. -/
  expected : Nat
  /-- The number of days. -/
  actual : Nat
  /-- Sessions that are not among the days, ascending. -/
  missing : List Day
  /-- Days that are no sessions, ascending. -/
  extra : List Day
deriving DecidableEq

/-- The days of one list that are not in another. -/
def DayList.without (list other : DayList) : List Day :=
  list.toList.filter fun day ↦ !other.contains day

namespace Calendar

/-- Compares days, in the order of their bars, with the sessions from the first to the last. -/
def check (calendar : Calendar) (days : List Day) : SessionReport :=
  match days.head?, days.getLast? with
  | some first, some last =>
    let expected := calendar.sessionsIn first last
    let expectedSet := DayList.ofList expected
    let actualSet := DayList.ofList days
    let missing := expectedSet.without actualSet
    let extra := actualSet.without expectedSet
    { isConsistent := expected.length == days.length && missing.isEmpty && extra.isEmpty
      expected := expected.length
      actual := days.length
      missing := missing
      extra := extra }
  | _, _ => ⟨true, 0, 0, [], []⟩

/-- The number of sessions in the closed range between two days, in either order. -/
def distance (calendar : Calendar) (a b : Day) : Nat :=
  if a ≤ b then calendar.sessionCount a b else calendar.sessionCount b a

/-- The distance between the boundary of a segment and that of the span it extends. -/
def requiredDistance : Nat := 2

/-- Whether the boundary day of a segment is one session away from that of the stored span. -/
def checkAdjacent (calendar : Calendar) (edge : Edge) (boundary storedBoundary : Day) :
    Except EdgeViolation Unit :=
  let distance := calendar.distance boundary storedBoundary
  if distance = requiredDistance then .ok ()
  else .error (.gap edge distance requiredDistance)

end Calendar

/-- The failure that a report on the bars of an asset stands for, if it is one. -/
def SessionReport.toError? (report : SessionReport) (asset : AssetId) (bars : List Bar) :
    Option StoreError :=
  if report.isConsistent then none
  else do
    let first ← bars.head?
    let last ← bars.getLast?
    return .inconsistentSessions asset first.day last.day report.expected report.actual
      report.missing report.extra

end DailyBars
