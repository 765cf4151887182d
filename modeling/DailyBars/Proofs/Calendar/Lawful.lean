import DailyBars.Calendar.SessionFile
import DailyBars.Proofs.Day.Ascending
import DailyBars.Proofs.Day.TextOrder
import Mathlib

/-!
# Lawful calendars

Lawfulness may hold for the ranges between some days only: the weekday rule never lists the last
day of all, but between days before it the rule is lawful (`WeekdayRule.isLawfulOn`). So
`Calendar.IsLawfulOn` names the days that ranges may start and end with, and a calendar is lawful
when it is lawful on all of them. Every calendar that a configuration resolves to is lawful on the
days of the years 0 to 9999 (`CalendarConfig.isLawfulOn_of_resolve`).
-/

namespace DailyBars

namespace Calendar

/-- The listed sessions of every range between two of certain days are exactly its sessions, in
ascending order. -/
structure IsLawfulOn (calendar : Calendar) (ends : Day → Prop) : Prop where
  ascending : ∀ {start stop}, ends start → ends stop →
    (calendar.sessionsIn start stop).Pairwise (· < ·)
  mem_iff : ∀ {start stop}, ends start → ends stop → ∀ {day},
    day ∈ calendar.sessionsIn start stop ↔
      start ≤ day ∧ day ≤ stop ∧ calendar.isSession day = true

theorem IsLawful.isLawfulOn {calendar : Calendar} (h : calendar.IsLawful) (ends : Day → Prop) :
    calendar.IsLawfulOn ends where
  ascending _ _ := h.ascending _ _
  mem_iff _ _ := h.mem_iff _ _ _

theorem IsLawfulOn.mono {calendar : Calendar} {ends fewer : Day → Prop}
    (h : calendar.IsLawfulOn ends) (hfewer : ∀ day, fewer day → ends day) :
    calendar.IsLawfulOn fewer where
  ascending hstart hstop := h.ascending (hfewer _ hstart) (hfewer _ hstop)
  mem_iff hstart hstop := h.mem_iff (hfewer _ hstart) (hfewer _ hstop)

/-- The calendar of a list of sessions is lawful. -/
theorem isLawful_ofSessions (name : String) (sessions : DayList) :
    (ofSessions name sessions).IsLawful where
  ascending _ _ := DayList.ascending_between
  mem_iff start stop day := by
    show day ∈ sessions.between start stop ↔ start ≤ day ∧ day ≤ stop ∧ sessions.contains day
    rw [DayList.mem_between, DayList.contains_iff]
    tauto

end Calendar

/-! ### The weekday rule -/

namespace Day

theorem ascending_upTo (start stop : Day) : (start.upTo stop).Pairwise (· < ·) := by
  refine List.pairwise_lt_range.filterMap _ fun i j hij day hi next hj ↦ ?_
  have hday := ofNumber?_eq_some_iff.1 hi
  have hnext := ofNumber?_eq_some_iff.1 hj
  rw [lt_iff, hday, hnext]
  omega

/-- **A walk lists the days of its range that have a day after them.** -/
theorem mem_upTo {start stop day : Day} :
    day ∈ start.upTo stop ↔ start ≤ day ∧ day ≤ stop ∧ day < greatest := by
  have hgreatest : greatest.number = 95026236 := rfl
  rw [upTo, List.mem_filterMap, le_iff, le_iff, lt_iff]
  constructor
  · rintro ⟨i, hi, hday⟩
    have hnumber := ofNumber?_eq_some_iff.1 hday
    rw [List.mem_range] at hi
    omega
  · rintro ⟨hstart, hstop, hlast⟩
    refine ⟨(day.number - start.number).toNat, List.mem_range.2 (by omega), ?_⟩
    rw [ofNumber?_eq_some_iff]
    omega

/-- The last day of all has a year of six digits. -/
theorem IsUnsigned.lt_greatest {day : Day} (h : day.IsUnsigned) : day < greatest := by
  have hne : day ≠ greatest := by
    rintro rfl
    exact absurd h (by decide)
  exact lt_of_le_of_ne day.inRange.2 hne

end Day

theorem WeekdayRule.isLawfulOn (rule : WeekdayRule) :
    rule.calendar.IsLawfulOn fun day ↦ day < Day.greatest where
  ascending _ _ := (Day.ascending_upTo _ _).filter _
  mem_iff {start stop} _ hstop day := by
    show day ∈ (start.upTo stop).filter rule.isSession ↔ _ ∧ _ ∧ rule.isSession day = true
    rw [List.mem_filter, Day.mem_upTo]
    have hbefore : day ≤ stop → day < Day.greatest := fun h ↦ lt_of_le_of_lt h hstop
    tauto

/-- **Every configured calendar is lawful between days of the years 0 to 9999.** -/
theorem CalendarConfig.isLawfulOn_of_resolve {config : CalendarConfig} {files : Files}
    {calendar : Calendar} (h : config.resolve files = .ok calendar) :
    calendar.IsLawfulOn Day.IsUnsigned := by
  rw [CalendarConfig.resolve] at h
  split at h
  · cases h
  split at h
  · rename_i path _
    cases hread : SessionFile.read files path with
    | error error => rw [hread] at h; cases h
    | ok sessions =>
      rw [hread] at h
      cases h
      exact (Calendar.isLawful_ofSessions _ _).isLawfulOn _
  · cases h
    exact (WeekdayRule.isLawfulOn _).mono fun _ ↦ Day.IsUnsigned.lt_greatest

end DailyBars
