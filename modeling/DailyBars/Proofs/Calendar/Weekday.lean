import DailyBars.Proofs.Calendar.Lawful
import DailyBars.Proofs.Reader.Queries
import Mathlib

/-!
# Ranges of the weekday rule

The weekday rule walks through the days of a range and lists a day once it has stepped to the next
one (`Day.upTo_of_le`). The last day of all has no next one, so **it is never listed**, and this is
the only way in which the rule falls short of a lawful calendar: what a range lists are its sessions
without that day (`WeekdayRule.mem_sessionsIn`), and the list is complete exactly if the range does
not end with the last day or that day, a Monday, is a holiday
(`WeekdayRule.forall_mem_sessionsIn_iff`).

Where a range is cut does not matter (`WeekdayRule.sessionsIn_append`): a day that is left out of a
range is left out of both of its parts.
-/

namespace DailyBars

namespace Day

theorem le_greatest (day : Day) : day ≤ greatest :=
  day.inRange.2

/-- Every day before another has a day after it, and nothing lies between the two. -/
theorem exists_next?_of_lt {day later : Day} (h : day < later) :
    ∃ next, day.next? = some next ∧ ∀ other, next ≤ other ↔ day < other := by
  have hlater := later.inRange.2
  have hday := day.inRange.1
  rw [lt_iff] at h
  refine ⟨⟨day.number + 1, by omega, by omega⟩, ofNumber?_eq_some_iff.2 rfl, fun other ↦ ?_⟩
  rw [le_iff, lt_iff]
  exact Int.add_one_le_iff

/-- One step of a walk: a day is listed with the step to the next one, if there is one. -/
theorem upTo_of_le {start stop : Day} (h : start ≤ stop) :
    start.upTo stop =
      match start.next? with
      | none => []
      | some next => start :: next.upTo stop := by
  cases hnext : start.next? with
  | none =>
    have hlast : ¬start < greatest := fun hlt ↦ by
      obtain ⟨next, hsome, -⟩ := exists_next?_of_lt hlt
      rw [hnext] at hsome
      cases hsome
    refine List.eq_nil_iff_forall_not_mem.2 fun day hday ↦ ?_
    obtain ⟨hlow, -, hbefore⟩ := mem_upTo.1 hday
    exact hlast (lt_of_le_of_lt hlow hbefore)
  | some next =>
    have hnumber : next.number = start.number + 1 := ofNumber?_eq_some_iff.1 hnext
    have hrange := next.inRange.2
    have hgreatest : greatest.number = 95026236 := rfl
    refine List.Pairwise.eq_of_mem_iff (ascending_upTo start stop) (List.pairwise_cons.2
      ⟨fun day hday ↦ ?_, ascending_upTo next stop⟩) fun day ↦ ?_
    · obtain ⟨hlow, -, -⟩ := mem_upTo.1 hday
      rw [le_iff] at hlow
      rw [lt_iff]
      omega
    · rw [List.mem_cons, mem_upTo, mem_upTo, Day.ext_iff]
      simp only [le_iff, lt_iff] at *
      omega

end Day

namespace WeekdayRule

variable {rule : WeekdayRule} {start stop day : Day}

/-- A session is a day from Monday to Friday that is no holiday. -/
theorem isSession_iff :
    rule.isSession day = true ↔ day.weekday < 5 ∧ day ∉ rule.holidays.toList := by
  rw [isSession, Bool.and_eq_true, Bool.not_eq_true', Bool.not_eq_true', Day.isWeekend,
    decide_eq_false_iff_not, not_le, ← Bool.not_eq_true, DayList.contains_iff]

/-- The last day of all is a Monday. -/
theorem isSession_greatest_iff :
    rule.isSession Day.greatest = true ↔ Day.greatest ∉ rule.holidays.toList := by
  rw [isSession_iff]
  exact and_iff_right (by decide)

theorem ascending_sessionsIn (rule : WeekdayRule) (start stop : Day) :
    (rule.sessionsIn start stop).Pairwise (· < ·) :=
  (Day.ascending_upTo start stop).filter _

/-- **A range lists its sessions, but not the last day of all.** -/
theorem mem_sessionsIn : day ∈ rule.sessionsIn start stop ↔
    (start ≤ day ∧ day ≤ stop ∧ rule.isSession day = true) ∧ day ≠ Day.greatest := by
  rw [sessionsIn, List.mem_filter, Day.mem_upTo]
  have hlast : day < Day.greatest ↔ day ≠ Day.greatest := by
    refine ⟨?_, lt_of_le_of_ne day.le_greatest⟩
    rintro h rfl
    exact lt_irrefl _ h
  rw [hlast]
  tauto

/-- **A range is listed part by part**, wherever it is cut. -/
theorem sessionsIn_append {middle next : Day} (hstart : start ≤ middle) (hstop : middle < stop)
    (hnext : ∀ other, next ≤ other ↔ middle < other) :
    rule.sessionsIn start middle ++ rule.sessionsIn next stop = rule.sessionsIn start stop := by
  refine List.Pairwise.eq_of_mem_iff (List.pairwise_append.2 ⟨rule.ascending_sessionsIn _ _,
    rule.ascending_sessionsIn _ _, fun a ha b hb ↦ ?_⟩) (rule.ascending_sessionsIn _ _) fun day ↦ ?_
  · obtain ⟨⟨-, hle, -⟩, -⟩ := mem_sessionsIn.1 ha
    obtain ⟨⟨hlater, -, -⟩, -⟩ := mem_sessionsIn.1 hb
    exact lt_of_le_of_lt hle ((hnext b).1 hlater)
  · rw [List.mem_append, mem_sessionsIn, mem_sessionsIn, mem_sessionsIn, ← or_and_right, hnext]
    refine and_congr_left fun _ ↦ ?_
    -- The session is in the first part or in the second, as it is not after `middle` or is.
    simp only [Day.le_iff, Day.lt_iff] at *
    constructor
    · rintro (⟨hlow, hhigh, hsession⟩ | ⟨hlow, hhigh, hsession⟩)
      · exact ⟨hlow, by omega, hsession⟩
      · exact ⟨by omega, hhigh, hsession⟩
    · rintro ⟨hlow, hhigh, hsession⟩
      by_cases hmiddle : day.number ≤ middle.number
      · exact .inl ⟨hlow, hmiddle, hsession⟩
      · exact .inr ⟨by omega, hhigh, hsession⟩

/-- A range lists all of its sessions exactly if the last day of all is none of them. -/
theorem forall_mem_sessionsIn_iff :
    (∀ day, day ∈ rule.sessionsIn start stop ↔
      start ≤ day ∧ day ≤ stop ∧ rule.isSession day = true) ↔
      (stop = Day.greatest → Day.greatest ∈ rule.holidays.toList) := by
  simp only [mem_sessionsIn, and_iff_left_iff_imp]
  constructor
  · rintro h rfl
    by_contra hholiday
    exact h _ ⟨start.le_greatest, le_refl _, isSession_greatest_iff.2 hholiday⟩ rfl
  · rintro h day ⟨-, hstop, hsession⟩ rfl
    exact isSession_greatest_iff.1 hsession (h (le_antisymm stop.le_greatest hstop))

/-- **What the weekday rule lists**, for all holidays and all ranges of days: in ascending order the
days of the range that are sessions, but for the last day of all, and as many as are counted. The
list is that of all sessions exactly if the range does not end with the last day of all or that day
is a holiday. A range that is cut in two is listed by its two parts. -/
theorem sessionsIn_without_greatest (rule : WeekdayRule) (start stop : Day) :
    let calendar := rule.calendar
    let sessions := calendar.sessionsIn start stop
    sessions.Pairwise (· < ·) ∧
    (∀ day, day ∈ sessions ↔
      (start ≤ day ∧ day ≤ stop ∧ calendar.isSession day = true) ∧ day ≠ Day.greatest) ∧
    (∀ day, calendar.isSession day = true ↔ day.weekday < 5 ∧ day ∉ rule.holidays.toList) ∧
    (stop < start → sessions = []) ∧
    calendar.sessionCount start stop = sessions.length ∧
    ((∀ day, day ∈ sessions ↔ start ≤ day ∧ day ≤ stop ∧ calendar.isSession day = true) ↔
      (stop = Day.greatest → Day.greatest ∈ rule.holidays.toList)) ∧
    ∀ middle, start ≤ middle → middle < stop → ∃ next, middle.next? = some next ∧
      calendar.sessionsIn start middle ++ calendar.sessionsIn next stop = sessions := by
  intro calendar sessions
  refine ⟨rule.ascending_sessionsIn start stop, fun day ↦ mem_sessionsIn, fun day ↦ isSession_iff,
    fun hinverted ↦ ?_, rfl, forall_mem_sessionsIn_iff, fun middle hstart hstop ↦ ?_⟩
  · refine List.eq_nil_iff_forall_not_mem.2 fun day hday ↦ ?_
    obtain ⟨⟨hlow, hhigh, -⟩, -⟩ := mem_sessionsIn.1 hday
    exact not_le.2 hinverted (le_trans hlow hhigh)
  · obtain ⟨next, hnext, hafter⟩ := Day.exists_next?_of_lt hstop
    exact ⟨next, hnext, sessionsIn_append hstart hstop hafter⟩

end WeekdayRule

namespace Sample

/-- The last Thursday of all, four days before the last day. -/
def lastThursday : Day :=
  ⟨95026232, by decide⟩

end Sample

namespace WeekdayRule

/-- Where the last Monday of all is a holiday, the list from the last Thursday to it is complete,
and it is the same in two parts. -/
theorem sessionsIn_of_last_holiday :
    let rule := ofHolidays "XNYS" [Day.greatest]
    Day.greatest ∈ rule.holidays.toList ∧ Sample.lastThursday < Day.greatest ∧
      (∀ day, day ∈ rule.calendar.sessionsIn Sample.lastThursday Day.greatest ↔
        Sample.lastThursday ≤ day ∧ day ≤ Day.greatest ∧ rule.calendar.isSession day = true) ∧
      ∃ next, Sample.lastThursday.next? = some next ∧
        rule.calendar.sessionsIn Sample.lastThursday Sample.lastThursday ++
          rule.calendar.sessionsIn next Day.greatest =
            rule.calendar.sessionsIn Sample.lastThursday Day.greatest := by
  intro rule
  have hholiday : Day.greatest ∈ rule.holidays.toList :=
    DayList.mem_ofList.2 (List.mem_singleton_self _)
  obtain ⟨-, -, -, -, -, hcomplete, happend⟩ :=
    sessionsIn_without_greatest rule Sample.lastThursday Day.greatest
  exact ⟨hholiday, by decide, hcomplete.2 fun _ ↦ hholiday,
    happend Sample.lastThursday (by decide) (by decide)⟩

/-- **A session may be missing from its own range**: the last day of all is a Monday, and without
holidays neither the list from the last Thursday to it nor the count of that one day has it. -/
theorem exists_session_not_listed :
    let calendar := Sample.weekdays
    calendar.isSession Day.greatest = true ∧
      calendar.sessionsIn Sample.lastThursday Day.greatest =
        [Sample.lastThursday, ⟨95026233, by decide⟩] ∧
      calendar.sessionCount Day.greatest Day.greatest = 0 ∧ ¬calendar.IsLawful := by
  have hsession : Sample.weekdays.isSession Day.greatest = true := by cbv
  have hnone : Sample.weekdays.sessionsIn Day.greatest Day.greatest = [] := by cbv
  refine ⟨hsession, by cbv, congrArg List.length hnone, fun hlawful ↦ ?_⟩
  have hmem := (hlawful.mem_iff Day.greatest Day.greatest Day.greatest).2
    ⟨le_refl _, le_refl _, hsession⟩
  rw [hnone] at hmem
  exact List.not_mem_nil hmem

end WeekdayRule

end DailyBars
