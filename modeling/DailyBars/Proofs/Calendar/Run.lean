import DailyBars.Consistency
import DailyBars.Proofs.Calendar.Lawful
import Mathlib

/-!
# Runs of sessions

A list of days is a run of a calendar when it is exactly what the calendar lists from its first day
to its last. On ascending lists that is what the consistency check decides
(`Calendar.check_isConsistent_iff`).

**The adjacency test alone says less.** It counts the sessions between two boundary days and does
not ask whether these days are sessions. Only for two sessions does the count of two mean that none
lies between them (`Calendar.not_isSession_between`), and only then do two runs join into one
(`Calendar.IsRun.append`).
-/

namespace DailyBars

namespace Calendar

variable {calendar : Calendar} {ends : Day → Prop} {days : List Day}

/-- The days are exactly the sessions from the first of them to the last. -/
def IsRun (calendar : Calendar) (days : List Day) : Prop :=
  ∀ first last, days.head? = some first → days.getLast? = some last →
    days = calendar.sessionsIn first last

theorem isRun_nil (calendar : Calendar) : calendar.IsRun [] := by
  intro first last hfirst
  cases hfirst

/-- The ends of a list that has days. -/
theorem exists_ends (h : days ≠ []) :
    ∃ first last, days.head? = some first ∧ days.getLast? = some last :=
  ⟨days.head h, days.getLast h, List.head?_eq_some_head h, List.getLast?_eq_some_getLast h⟩

theorem IsRun.ascending (hrun : calendar.IsRun days) (h : calendar.IsLawfulOn ends)
    (hends : ∀ day ∈ days, ends day) : days.Pairwise (· < ·) := by
  by_cases hempty : days = []
  · rw [hempty]
    exact List.Pairwise.nil
  · obtain ⟨first, last, hfirst, hlast⟩ := exists_ends hempty
    rw [hrun first last hfirst hlast]
    exact h.ascending (hends _ (List.mem_of_head? hfirst)) (hends _ (List.mem_of_getLast? hlast))

theorem IsRun.isSession (hrun : calendar.IsRun days) (h : calendar.IsLawfulOn ends)
    (hends : ∀ day ∈ days, ends day) {day : Day} (hday : day ∈ days) :
    calendar.isSession day = true := by
  obtain ⟨first, last, hfirst, hlast⟩ := exists_ends (List.ne_nil_of_mem hday)
  rw [hrun first last hfirst hlast] at hday
  exact ((h.mem_iff (hends _ (List.mem_of_head? hfirst))
    (hends _ (List.mem_of_getLast? hlast))).1 hday).2.2

/-- **A session between the ends of a run is in the run.** -/
theorem IsRun.mem (hrun : calendar.IsRun days) (h : calendar.IsLawfulOn ends)
    (hends : ∀ day ∈ days, ends day) {first last day : Day} (hfirst : days.head? = some first)
    (hlast : days.getLast? = some last) (hlow : first ≤ day) (hhigh : day ≤ last)
    (hsession : calendar.isSession day = true) : day ∈ days := by
  rw [hrun first last hfirst hlast]
  exact (h.mem_iff (hends _ (List.mem_of_head? hfirst))
    (hends _ (List.mem_of_getLast? hlast))).2 ⟨hlow, hhigh, hsession⟩

/-- **A part of a run is a run**: what lies between two days of the part lies between their
neighbours as well. -/
theorem IsRun.part {xs ys zs : List Day} (hrun : calendar.IsRun (xs ++ ys ++ zs))
    (h : calendar.IsLawfulOn ends) (hends : ∀ day ∈ xs ++ ys ++ zs, ends day) :
    calendar.IsRun ys := by
  intro first last hfirst hlast
  have hascending := hrun.ascending h hends
  obtain ⟨hxys, -, hxyz⟩ := List.pairwise_append.1 hascending
  obtain ⟨-, hys, hxy⟩ := List.pairwise_append.1 hxys
  have hmem : ∀ {day}, day ∈ ys → day ∈ xs ++ ys ++ zs := fun hday ↦
    List.mem_append_left _ (List.mem_append_right _ hday)
  have hfirstMem := List.mem_of_head? hfirst
  have hlastMem := List.mem_of_getLast? hlast
  have hefirst := hends first (hmem hfirstMem)
  have helast := hends last (hmem hlastMem)
  refine List.Pairwise.eq_of_mem_iff hys (h.ascending hefirst helast) fun day ↦ ?_
  rw [h.mem_iff hefirst helast]
  constructor
  · intro hday
    exact ⟨Day.head_le_of_ascending hys hfirst hday, Day.le_getLast_of_ascending hys hlast hday,
      hrun.isSession h hends (hmem hday)⟩
  · rintro ⟨hlow, hhigh, hsession⟩
    obtain ⟨a, d, ha, hd⟩ := exists_ends (List.ne_nil_of_mem (hmem hfirstMem))
    have hday : day ∈ xs ++ ys ++ zs := hrun.mem h hends ha hd
      (le_trans (Day.head_le_of_ascending hascending ha (hmem hfirstMem)) hlow)
      (le_trans hhigh (Day.le_getLast_of_ascending hascending hd (hmem hlastMem))) hsession
    -- The days of the run that are before the part or after it are not between its ends.
    rcases List.mem_append.1 hday with hday | hafter
    · rcases List.mem_append.1 hday with hbefore | hday
      · exact absurd (hxy day hbefore first hfirstMem) (not_lt.2 hlow)
      · exact hday
    · exact absurd (hxyz last (List.mem_append_right _ hlastMem) day hafter) (not_lt.2 hhigh)

/-! ### The consistency check -/

theorem without_isEmpty_iff {list other : DayList} :
    (list.without other).isEmpty = true ↔ ∀ day ∈ list.toList, day ∈ other.toList := by
  rw [DayList.without, List.isEmpty_iff, List.filter_eq_nil_iff]
  refine forall₂_congr fun day _ ↦ ?_
  rw [Bool.not_eq_true', Bool.not_eq_false, DayList.contains_iff]

/-- **The check accepts exactly the runs**, of ascending days under a lawful calendar. -/
theorem check_isConsistent_iff (h : calendar.IsLawfulOn ends)
    (hends : ∀ day ∈ days, ends day) (hdays : days.Pairwise (· < ·)) :
    (calendar.check days).isConsistent = true ↔ calendar.IsRun days := by
  by_cases hempty : days = []
  · subst hempty
    exact iff_of_true rfl (isRun_nil calendar)
  obtain ⟨first, last, hfirst, hlast⟩ := exists_ends hempty
  have hlisted := h.ascending (hends _ (List.mem_of_head? hfirst))
    (hends _ (List.mem_of_getLast? hlast))
  simp only [check, hfirst, hlast, Bool.and_eq_true, without_isEmpty_iff, DayList.mem_ofList,
    beq_iff_eq]
  constructor
  · rintro ⟨⟨-, hmissing⟩, hextra⟩ first' last' hfirst' hlast'
    rw [hfirst, Option.some_inj] at hfirst'
    rw [hlast, Option.some_inj] at hlast'
    rw [← hfirst', ← hlast']
    exact List.Pairwise.eq_of_mem_iff hdays hlisted fun day ↦ ⟨hextra day, hmissing day⟩
  · intro hrun
    rw [← hrun first last hfirst hlast]
    exact ⟨⟨rfl, fun _ hday ↦ hday⟩, fun _ hday ↦ hday⟩

/-! ### Joining runs -/

theorem checkAdjacent_eq_ok_iff {edge : Edge} {boundary storedBoundary : Day} :
    calendar.checkAdjacent edge boundary storedBoundary = .ok () ↔
      calendar.distance boundary storedBoundary = 2 := by
  rw [checkAdjacent, requiredDistance]
  split <;> simp_all

theorem distance_eq_of_le {a b : Day} (h : a ≤ b) :
    calendar.distance a b = (calendar.sessionsIn a b).length := by
  rw [distance, if_pos h, sessionCount]

theorem distance_eq_of_lt {a b : Day} (h : b < a) :
    calendar.distance a b = (calendar.sessionsIn b a).length := by
  rw [distance, if_neg (not_le.2 h), sessionCount]

/-- Where a range between two sessions has two sessions, none lies between them. -/
theorem not_isSession_between (h : calendar.IsLawfulOn ends) {a b : Day} (ha : ends a)
    (hb : ends b) (hab : a < b) (hsa : calendar.isSession a = true)
    (hsb : calendar.isSession b = true) (hcount : (calendar.sessionsIn a b).length = 2)
    {day : Day} (hlow : a < day) (hhigh : day < b) : calendar.isSession day = false := by
  by_contra hnot
  have hsession : calendar.isSession day = true := by simpa using hnot
  have hmem : ∀ other ∈ [a, day, b], other ∈ calendar.sessionsIn a b := by
    intro other hother
    simp only [List.mem_cons, List.not_mem_nil, or_false] at hother
    rw [h.mem_iff ha hb]
    simp only [Day.le_iff, Day.lt_iff] at *
    rcases hother with rfl | rfl | rfl
    · exact ⟨by omega, by omega, hsa⟩
    · exact ⟨by omega, by omega, hsession⟩
    · exact ⟨by omega, by omega, hsb⟩
  have hascending : [a, day, b].Pairwise (· < ·) := by
    simp [hlow, hhigh, hab]
  have hle := (hascending.nodup.subperm hmem).length_le
  rw [hcount] at hle
  exact absurd hle (Nat.not_le.2 (Nat.lt_succ_self 2))

/-- **Two runs join into one** where the last day of the first and the first day of the second are
the only two sessions from the one to the other. -/
theorem IsRun.append {xs ys : List Day} (hxs : calendar.IsRun xs) (hys : calendar.IsRun ys)
    (h : calendar.IsLawfulOn ends) (hxends : ∀ day ∈ xs, ends day) (hyends : ∀ day ∈ ys, ends day)
    (hjoin : ∀ b c, xs.getLast? = some b → ys.head? = some c →
      b < c ∧ (calendar.sessionsIn b c).length = 2) : calendar.IsRun (xs ++ ys) := by
  by_cases hxnil : xs = []
  · rwa [hxnil, List.nil_append]
  by_cases hynil : ys = []
  · rwa [hynil, List.append_nil]
  obtain ⟨a, b, ha, hb⟩ := exists_ends hxnil
  obtain ⟨c, d, hc, hd⟩ := exists_ends hynil
  obtain ⟨hbc, hcount⟩ := hjoin b c hb hc
  have hbmem := List.mem_of_getLast? hb
  have hcmem := List.mem_of_head? hc
  have hxasc := hxs.ascending h hxends
  have hyasc := hys.ascending h hyends
  intro first last hfirst hlast
  obtain rfl : a = first := by simpa [List.head?_append, ha] using hfirst
  obtain rfl : d = last := by simpa [List.getLast?_append, hd] using hlast
  have hcross : ∀ x ∈ xs, ∀ y ∈ ys, x < y := fun x hx y hy ↦
    lt_of_le_of_lt (Day.le_getLast_of_ascending hxasc hb hx)
      (lt_of_lt_of_le hbc (Day.head_le_of_ascending hyasc hc hy))
  have hea := hxends a (List.mem_of_head? ha)
  have hed := hyends d (List.mem_of_getLast? hd)
  refine List.Pairwise.eq_of_mem_iff (List.pairwise_append.2 ⟨hxasc, hyasc, hcross⟩)
    (h.ascending hea hed) fun day ↦ ?_
  rw [List.mem_append, h.mem_iff hea hed]
  constructor
  · rintro (hday | hday)
    · refine ⟨Day.head_le_of_ascending hxasc ha hday, ?_, hxs.isSession h hxends hday⟩
      exact le_of_lt (hcross day hday d (List.mem_of_getLast? hd))
    · refine ⟨?_, Day.le_getLast_of_ascending hyasc hd hday, hys.isSession h hyends hday⟩
      exact le_of_lt (hcross a (List.mem_of_head? ha) day hday)
  · rintro ⟨hlow, hhigh, hsession⟩
    -- A session is not later than `b`, or not earlier than `c`: between the two there is none.
    by_cases hxday : day ≤ b
    · exact Or.inl (hxs.mem h hxends ha hb hlow hxday hsession)
    by_cases hyday : c ≤ day
    · exact Or.inr (hys.mem h hyends hc hd hyday hhigh hsession)
    have hnone := not_isSession_between h (hxends b hbmem) (hyends c hcmem) hbc
      (hxs.isSession h hxends hbmem) (hys.isSession h hyends hcmem) hcount
      (not_le.1 hxday) (not_le.1 hyday)
    rw [hnone] at hsession
    cases hsession

/-- **Two lists join into a run exactly if they are runs** and the two days that meet are the only
sessions from the one to the other. -/
theorem isRun_append_iff {xs ys : List Day} {b c : Day} (h : calendar.IsLawfulOn ends)
    (hends : ∀ day ∈ xs ++ ys, ends day) (hb : xs.getLast? = some b) (hc : ys.head? = some c)
    (hbc : b < c) :
    calendar.IsRun (xs ++ ys) ↔ calendar.IsRun xs ∧ calendar.IsRun ys ∧
      (calendar.sessionsIn b c).length = 2 := by
  constructor
  · intro hrun
    have hleft : calendar.IsRun ([] ++ xs ++ ys) := hrun
    refine ⟨hleft.part h hends, ?_, ?_⟩
    · rw [← List.append_nil (xs ++ ys)] at hrun hends
      exact hrun.part h hends
    · obtain ⟨before, rfl⟩ := List.getLast?_eq_some_iff.1 hb
      obtain ⟨after, rfl⟩ := List.head?_eq_some_iff.1 hc
      have hpair : before ++ [b] ++ c :: after = before ++ [b, c] ++ after := by simp
      rw [hpair] at hrun hends
      rw [← hrun.part h hends b c rfl rfl]
      rfl
  · rintro ⟨hxs, hys, hcount⟩
    obtain ⟨hxends, hyends⟩ := List.forall_mem_append.1 hends
    refine hxs.append hys h hxends hyends fun b' c' hb' hc' ↦ ?_
    obtain rfl := Option.some_inj.1 (hb.symm.trans hb')
    obtain rfl := Option.some_inj.1 (hc.symm.trans hc')
    exact ⟨hbc, hcount⟩

/-- A run grows at both of its ends. -/
theorem IsRun.surround {xs ys zs : List Day} {first last : Day} (hys : calendar.IsRun ys)
    (hxs : calendar.IsRun xs) (hzs : calendar.IsRun zs) (h : calendar.IsLawfulOn ends)
    (hall : ∀ day ∈ xs ++ ys ++ zs, ends day) (hfirst : ys.head? = some first)
    (hlast : ys.getLast? = some last)
    (hbefore : ∀ b, xs.getLast? = some b → b < first ∧ (calendar.sessionsIn b first).length = 2)
    (hafter : ∀ c, zs.head? = some c → last < c ∧ (calendar.sessionsIn last c).length = 2) :
    calendar.IsRun (xs ++ ys ++ zs) := by
  obtain ⟨hxys, hzends⟩ := List.forall_mem_append.1 hall
  obtain ⟨hxends, hyends⟩ := List.forall_mem_append.1 hxys
  have hjoined : calendar.IsRun (xs ++ ys) := by
    refine hxs.append hys h hxends hyends fun b c hb hc ↦ ?_
    obtain rfl : first = c := by rw [hfirst] at hc; exact Option.some_inj.1 hc
    exact hbefore b hb
  refine hjoined.append hzs h hxys hzends fun b c hb hc ↦ ?_
  obtain rfl : last = b := by
    rw [List.getLast?_append, hlast] at hb
    exact Option.some_inj.1 hb
  exact hafter c hc

end Calendar

end DailyBars
