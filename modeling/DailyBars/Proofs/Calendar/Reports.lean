import DailyBars.Proofs.Calendar.Run
import DailyBars.Proofs.Reader.Queries
import Mathlib

/-!
# Reports under calendars that list days

A calendar may list, of certain days, those of each range, in any order and some of them more than
once (`Calendar.Lists`). Its list of a range need not ascend then, and the report on ascending days
compares them with a list of which only the members and the length count
(`SessionReport.Compares`). Each of the two would be too little alone: a list that repeats a day may
have the members and not the length, and lists of one length may differ. **Together they say that
the list, once sorted, is the days** (`SessionReport.Compares.isConsistent_iff`).

What is missing and what is extra are differences of members. So the report on days next to
consistent ones is known in full (`Calendar.check_of_consistent`): it names the days in which the
two lists differ, in particular the one day that is put in between the ends or taken out there.
-/

namespace DailyBars

/-! ### Differences of ascending lists -/

namespace DayList

variable {list other : DayList} {day : Day}

theorem mem_without : day ∈ list.without other ↔ day ∈ list.toList ∧ day ∉ other.toList := by
  rw [without, List.mem_filter, Bool.not_eq_true', ← Bool.not_eq_true, contains_iff]

theorem ascending_without (list other : DayList) : (list.without other).Pairwise (· < ·) :=
  list.ascending.filter _

/-- The days that two lists have in common count once for each of them. -/
theorem length_add_length_without (list other : DayList) :
    list.toList.length + (other.without list).length =
      other.toList.length + (list.without other).length := by
  have hcommon : list.toList.filter other.contains = other.toList.filter list.contains := by
    refine List.Pairwise.eq_of_mem_iff (list.ascending.filter _) (other.ascending.filter _)
      fun day ↦ ?_
    rw [List.mem_filter, List.mem_filter, contains_iff, contains_iff, and_comm]
  have hlist := List.length_eq_length_filter_add (l := list.toList) other.contains
  have hother := List.length_eq_length_filter_add (l := other.toList) list.contains
  rw [hcommon] at hlist
  rw [without, without]
  omega

/-- Without repeats nothing is lost but the order. -/
theorem length_ofList_of_nodup {days : List Day} (h : days.Nodup) :
    (ofList days).toList.length = days.length :=
  ((List.perm_ext_iff_of_nodup (ofList days).ascending.nodup h).2
    fun _ ↦ mem_ofList).length_eq

end DayList

/-- **Ascending days are the sorted form of a list** exactly if both have the same length and the
same members. -/
theorem Day.mergeSort_eq_iff {list days : List Day} (hdays : days.Pairwise (· < ·)) :
    list.mergeSort (fun a b ↦ a ≤ b) = days ↔
      (list.length = days.length ∧ ∀ day ∈ list, day ∈ days) ∧ ∀ day ∈ days, day ∈ list := by
  have hsorted : (list.mergeSort fun a b ↦ a ≤ b).Pairwise (· ≤ ·) := by
    refine (List.pairwise_mergeSort (fun a b c hab hbc ↦ ?_) (fun a b ↦ ?_) list).imp
      of_decide_eq_true
    · exact decide_eq_true (le_trans (of_decide_eq_true hab) (of_decide_eq_true hbc))
    · simpa using le_total a b
  constructor
  · intro h
    have hperm : days.Perm list := h ▸ List.mergeSort_perm list _
    exact ⟨⟨hperm.length_eq.symm, fun _ ↦ hperm.mem_iff.2⟩, fun _ ↦ hperm.mem_iff.1⟩
  · rintro ⟨⟨hlength, -⟩, hsub⟩
    have hperm : days.Perm list := (List.subperm_of_subset hdays.nodup
      fun day hday ↦ hsub day hday).perm_of_length_le hlength.le
    exact ((List.mergeSort_perm list _).trans hperm.symm).eq_of_pairwise
      (fun a b _ _ ↦ le_antisymm) hsorted (hdays.imp le_of_lt)

/-! ### Reports -/

/-- The report compares ascending days with a list of expected days. -/
structure SessionReport.Compares (report : SessionReport) (expected days : List Day) : Prop where
  /-- The expected days are the days, but for their order. -/
  isConsistent_iff : report.isConsistent = true ↔ expected.mergeSort (fun a b ↦ a ≤ b) = days
  expected_eq : report.expected = expected.length
  actual_eq : report.actual = days.length
  missing_ascending : report.missing.Pairwise (· < ·)
  mem_missing_iff : ∀ day, day ∈ report.missing ↔ day ∈ expected ∧ day ∉ days
  extra_ascending : report.extra.Pairwise (· < ·)
  mem_extra_iff : ∀ day, day ∈ report.extra ↔ day ∈ days ∧ day ∉ expected
  /-- Every expected day is a day or missing, and every day is expected or extra. -/
  balance : expected.Nodup →
    report.expected + report.extra.length = report.actual + report.missing.length

namespace Calendar

variable {calendar : Calendar} {days xs ys : List Day} {first last day : Day}

theorem check_eq (hfirst : days.head? = some first) (hlast : days.getLast? = some last) :
    let expected := DayList.ofList (calendar.sessionsIn first last)
    let actual := DayList.ofList days
    calendar.check days =
      { isConsistent := (calendar.sessionsIn first last).length == days.length &&
          (expected.without actual).isEmpty && (actual.without expected).isEmpty
        expected := (calendar.sessionsIn first last).length
        actual := days.length
        missing := expected.without actual
        extra := actual.without expected } := by
  simp only [check, hfirst, hlast]

/-- **The check compares ascending days with what the calendar lists between their ends**, whatever
the order of that list is. -/
theorem compares_check (hdays : days.Pairwise (· < ·)) (hfirst : days.head? = some first)
    (hlast : days.getLast? = some last) :
    (calendar.check days).Compares (calendar.sessionsIn first last) days := by
  have hcheck : calendar.check days = _ := check_eq hfirst hlast
  refine ⟨?_, ?_, ?_, ?_, fun day ↦ ?_, ?_, fun day ↦ ?_, fun hnodup ↦ ?_⟩
  · rw [hcheck, Day.mergeSort_eq_iff hdays]
    simp only [Bool.and_eq_true, beq_iff_eq, without_isEmpty_iff, DayList.mem_ofList]
  · rw [hcheck]
  · rw [hcheck]
  · rw [hcheck]
    exact DayList.ascending_without _ _
  · rw [hcheck, DayList.mem_without, DayList.mem_ofList, DayList.mem_ofList]
  · rw [hcheck]
    exact DayList.ascending_without _ _
  · rw [hcheck, DayList.mem_without, DayList.mem_ofList, DayList.mem_ofList]
  · have hbalance := DayList.length_add_length_without
      (DayList.ofList (calendar.sessionsIn first last)) (DayList.ofList days)
    rw [DayList.length_ofList_of_nodup hnodup,
      DayList.length_ofList_of_nodup hdays.nodup] at hbalance
    rw [hcheck]
    exact hbalance

/-! ### One day more or less -/

/-- **Next to consistent days the report names the differences**: other ascending days with the same
ends are compared with the same expected days, which are the consistent ones but for their order. -/
theorem check_of_consistent {changed missing extra : List Day} (hdays : days.Pairwise (· < ·))
    (hchanged : changed.Pairwise (· < ·)) (hempty : days ≠ [])
    (hfirst : changed.head? = days.head?) (hlast : changed.getLast? = days.getLast?)
    (hconsistent : (calendar.check days).isConsistent = true) (hne : days ≠ changed)
    (hmissing : missing.Pairwise (· < ·))
    (hmem : ∀ day, day ∈ missing ↔ day ∈ days ∧ day ∉ changed)
    (hextra : extra.Pairwise (· < ·))
    (hmem' : ∀ day, day ∈ extra ↔ day ∈ changed ∧ day ∉ days) :
    calendar.check changed = ⟨false, days.length, changed.length, missing, extra⟩ := by
  obtain ⟨first, last, hhead, hend⟩ := exists_ends hempty
  have hsorted := (compares_check hdays hhead hend).isConsistent_iff.1 hconsistent
  have hperm : days.Perm (calendar.sessionsIn first last) := hsorted ▸ List.mergeSort_perm _ _
  have hcompares : (calendar.check changed).Compares _ _ :=
    compares_check hchanged (hfirst.trans hhead) (hlast.trans hend)
  have hinconsistent : (calendar.check changed).isConsistent = false :=
    Bool.eq_false_iff.2 fun h ↦ hne (hsorted.symm.trans (hcompares.isConsistent_iff.1 h))
  have hmissing' : (calendar.check changed).missing = missing :=
    List.Pairwise.eq_of_mem_iff hcompares.missing_ascending hmissing fun day ↦ by
      rw [hcompares.mem_missing_iff, hmem, hperm.mem_iff]
  have hextra' : (calendar.check changed).extra = extra :=
    List.Pairwise.eq_of_mem_iff hcompares.extra_ascending hextra fun day ↦ by
      rw [hcompares.mem_extra_iff, hmem', hperm.mem_iff]
  rw [← hinconsistent, ← hmissing', ← hextra', hperm.length_eq, ← hcompares.expected_eq,
    ← hcompares.actual_eq]

/-- A day between two others is no end of a list. -/
theorem ends_eq (day : Day) (hxs : xs ≠ []) (hys : ys ≠ []) :
    (xs ++ day :: ys).head? = (xs ++ ys).head? ∧
      (xs ++ day :: ys).getLast? = (xs ++ ys).getLast? := by
  refine ⟨?_, ?_⟩
  · rw [List.head?_append_of_ne_nil _ hxs, List.head?_append_of_ne_nil _ hxs]
  · rw [List.getLast?_append_of_ne_nil _ (List.cons_ne_nil day ys),
      List.getLast?_append_of_ne_nil _ hys, List.getLast?_cons_of_ne_nil hys]

/-- Lists with and without a day differ in that day only. -/
theorem mem_differences (h : (xs ++ day :: ys).Pairwise (· < ·)) (other : Day) :
    (other ∈ [day] ↔ other ∈ xs ++ day :: ys ∧ other ∉ xs ++ ys) ∧
      (other ∈ [] ↔ other ∈ xs ++ ys ∧ other ∉ xs ++ day :: ys) := by
  have hnodup := h.nodup
  rw [List.nodup_middle, List.nodup_cons] at hnodup
  have hmiddle : other ∈ xs ++ day :: ys ↔ other = day ∨ other ∈ xs ++ ys := by
    rw [List.perm_middle.mem_iff, List.mem_cons]
  rw [hmiddle, List.mem_singleton]
  refine ⟨⟨?_, fun ⟨hor, hnot⟩ ↦ hor.resolve_right hnot⟩, ?_⟩
  · rintro rfl
    exact ⟨.inl rfl, hnodup.1⟩
  · exact iff_of_false List.not_mem_nil fun ⟨hmem, hnot⟩ ↦ hnot (.inr hmem)

variable (hxs : xs ≠ []) (hys : ys ≠ []) (hascending : (xs ++ day :: ys).Pairwise (· < ·))

include hxs hys hascending

/-- **A day put in between the ends of consistent days is named as extra.** -/
theorem check_insert (hconsistent : (calendar.check (xs ++ ys)).isConsistent = true) :
    calendar.check (xs ++ day :: ys) =
      ⟨false, (xs ++ ys).length, (xs ++ day :: ys).length, [], [day]⟩ := by
  have hfewer := hascending.sublist ((List.sublist_cons_self day ys).append_left xs)
  obtain ⟨hfirst, hlast⟩ := ends_eq day hxs hys
  refine check_of_consistent hfewer hascending (List.append_ne_nil_of_left_ne_nil hxs ys) hfirst
    hlast hconsistent (fun heq ↦ ?_) List.Pairwise.nil (fun other ↦ ?_)
    (List.pairwise_singleton _ _) fun other ↦ ?_
  · exact List.cons_ne_self day ys (List.append_cancel_left heq).symm
  · exact (mem_differences hascending other).2
  · exact (mem_differences hascending other).1

/-- **A day taken out between the ends of consistent days is named as missing.** -/
theorem check_erase (hconsistent : (calendar.check (xs ++ day :: ys)).isConsistent = true) :
    calendar.check (xs ++ ys) =
      ⟨false, (xs ++ day :: ys).length, (xs ++ ys).length, [day], []⟩ := by
  have hfewer := hascending.sublist ((List.sublist_cons_self day ys).append_left xs)
  obtain ⟨hfirst, hlast⟩ := ends_eq day hxs hys
  refine check_of_consistent hascending hfewer (List.append_ne_nil_of_left_ne_nil hxs _)
    hfirst.symm hlast.symm hconsistent (fun heq ↦ ?_) (List.pairwise_singleton _ _)
    (fun other ↦ ?_) List.Pairwise.nil fun other ↦ ?_
  · exact List.cons_ne_self day ys (List.append_cancel_left heq)
  · exact (mem_differences hascending other).1
  · exact (mem_differences hascending other).2

end Calendar

/-! ### Bars under a calendar that lists days -/

/-- The calendar lists, of certain days, those of each range, in the order and as often as they
come. -/
def Calendar.Lists (calendar : Calendar) (listed : List Day) : Prop :=
  ∀ start stop, calendar.sessionsIn start stop = listed.filter fun day ↦ start ≤ day && day ≤ stop

theorem Calendar.Lists.mem_iff {calendar : Calendar} {listed : List Day}
    (h : calendar.Lists listed) {start stop day : Day} :
    day ∈ calendar.sessionsIn start stop ↔ day ∈ listed ∧ start ≤ day ∧ day ≤ stop := by
  rw [h, List.mem_filter, Bool.and_eq_true, decide_eq_true_eq, decide_eq_true_eq]

theorem Calendar.lists_listing (name : String) (listed : List Day) :
    (listing name listed).Lists listed :=
  fun _ _ ↦ rfl

/-- A report stands for a failure exactly if it is not consistent, and the failure says all that
the report does. -/
theorem SessionReport.toError?_eq (report : SessionReport) (asset : AssetId) {bars : List Bar}
    {first last : Bar} (hfirst : bars.head? = some first) (hlast : bars.getLast? = some last) :
    report.toError? asset bars =
      if report.isConsistent then none
      else some (.inconsistentSessions asset first.day last.day report.expected report.actual
        report.missing report.extra) := by
  rw [toError?, hfirst, hlast]
  rfl

namespace Calendar

variable {calendar : Calendar} {listed : List Day} {bars : List Bar} {first last : Bar}

/-- **The report on ascending bars** under a calendar that lists days in any order, with repeats:
they are consistent exactly if the listed days between their ends are their days once sorted; the
missing and the extra days are named, neither end being missing, and account for all days; and the
report is a failure exactly if it is not consistent. One bar more or less between the ends of
consistent bars makes them inconsistent, and its day is the one that is named. -/
theorem check_listed_days (hlists : calendar.Lists listed)
    (hascending : (bars.map Bar.day).Pairwise (· < ·)) (hfirst : bars.head? = some first)
    (hlast : bars.getLast? = some last) (asset : AssetId) :
    let expected := calendar.sessionsIn first.day last.day
    let report := calendar.check (bars.map Bar.day)
    (report.isConsistent = true ↔ expected.mergeSort (fun a b ↦ a ≤ b) = bars.map Bar.day) ∧
    (report.expected = expected.length ∧ report.actual = bars.length) ∧
    (report.missing.Pairwise (· < ·) ∧ ∀ day, day ∈ report.missing ↔
      (day ∈ listed ∧ first.day ≤ day ∧ day ≤ last.day) ∧ day ∉ bars.map Bar.day) ∧
    (report.extra.Pairwise (· < ·) ∧ ∀ day, day ∈ report.extra ↔
      day ∈ bars.map Bar.day ∧ day ∉ listed) ∧
    (first.day ∉ report.missing ∧ last.day ∉ report.missing) ∧
    (expected.Nodup →
      report.expected + report.extra.length = report.actual + report.missing.length) ∧
    (report.toError? asset bars =
      if report.isConsistent then none
      else some (.inconsistentSessions asset first.day last.day report.expected report.actual
        report.missing report.extra)) ∧
    (report.isConsistent = true → ∀ before after, before ≠ [] → after ≠ [] → ∀ bar,
      (bars = before ++ after → ((before ++ bar :: after).map Bar.day).Pairwise (· < ·) →
        calendar.check ((before ++ bar :: after).map Bar.day) =
          ⟨false, bars.length, bars.length + 1, [], [bar.day]⟩) ∧
      (bars = before ++ bar :: after → calendar.check ((before ++ after).map Bar.day) =
        ⟨false, bars.length, bars.length - 1, [bar.day], []⟩)) := by
  intro expected report
  have hhead : (bars.map Bar.day).head? = some first.day := by
    rw [List.head?_map, hfirst, Option.map_some]
  have hend : (bars.map Bar.day).getLast? = some last.day := by
    rw [List.getLast?_map, hlast, Option.map_some]
  have hcompares : report.Compares expected (bars.map Bar.day) :=
    compares_check hascending hhead hend
  have hnotMissing : ∀ day ∈ bars.map Bar.day, day ∉ report.missing := fun day hday hmissing ↦
    ((hcompares.mem_missing_iff day).1 hmissing).2 hday
  refine ⟨hcompares.isConsistent_iff, ⟨hcompares.expected_eq, ?_⟩,
    ⟨hcompares.missing_ascending, fun day ↦ ?_⟩, ⟨hcompares.extra_ascending, fun day ↦ ?_⟩,
    ⟨hnotMissing _ (List.mem_of_head? hhead), hnotMissing _ (List.mem_of_getLast? hend)⟩,
    hcompares.balance, report.toError?_eq asset hfirst hlast, ?_⟩
  · rw [hcompares.actual_eq, List.length_map]
  · rw [hcompares.mem_missing_iff, hlists.mem_iff]
  · -- A bar lies between the ends, so its day is expected if it is listed.
    rw [hcompares.mem_extra_iff, hlists.mem_iff]
    refine and_congr_right fun hday ↦ not_congr ⟨And.left, fun hlisted ↦ ⟨hlisted, ?_⟩⟩
    exact ⟨Day.head_le_of_ascending hascending hhead hday,
      Day.le_getLast_of_ascending hascending hend hday⟩
  · intro hconsistent before after hbefore hafter bar
    have hxs : before.map Bar.day ≠ [] := mt List.map_eq_nil_iff.1 hbefore
    have hys : after.map Bar.day ≠ [] := mt List.map_eq_nil_iff.1 hafter
    refine ⟨?_, ?_⟩
    · rintro rfl hmore
      rw [List.map_append, List.map_cons] at hmore ⊢
      rw [check_insert hxs hys hmore (List.map_append ▸ hconsistent)]
      simp [Nat.add_assoc]
    · rintro rfl
      rw [List.map_append, List.map_cons] at hascending
      rw [List.map_append, check_erase hxs hys hascending (by
        rw [← List.map_cons, ← List.map_append]
        exact hconsistent)]
      simp

end Calendar

namespace Sample

/-- A list of days that is not ascending, and one of them stands in it twice. -/
def shuffled : List Day :=
  [day 4, day 9, day 1, day 9, day 3]

end Sample

namespace Calendar

/-- Between a Tuesday and a Friday the shuffled list has the three days of the bars: a bar on the
Wednesday is one more, and without the bar on the Thursday one is missing. -/
theorem check_shuffled_days :
    let calendar := listing "XNYS" Sample.shuffled
    let bars := [Sample.bar ⟨7⟩ 1 10, Sample.bar ⟨7⟩ 3 20, Sample.bar ⟨7⟩ 4 30]
    calendar.Lists Sample.shuffled ∧ (bars.map Bar.day).Pairwise (· < ·) ∧
      (calendar.check (bars.map Bar.day)).isConsistent = true ∧
      calendar.check [Sample.day 1, Sample.day 2, Sample.day 3, Sample.day 4] =
        ⟨false, 3, 4, [], [Sample.day 2]⟩ ∧
      calendar.check [Sample.day 1, Sample.day 4] = ⟨false, 3, 2, [Sample.day 3], []⟩ := by
  intro calendar bars
  have hascending : (bars.map Bar.day).Pairwise (· < ·) := by decide
  have hconsistent : (calendar.check (bars.map Bar.day)).isConsistent = true := by cbv
  obtain ⟨-, -, -, -, -, -, -, hnext⟩ := check_listed_days (lists_listing "XNYS" Sample.shuffled)
    hascending rfl rfl ⟨7⟩
  have hinsert := hnext hconsistent [Sample.bar ⟨7⟩ 1 10]
    [Sample.bar ⟨7⟩ 3 20, Sample.bar ⟨7⟩ 4 30] (by decide) (by decide) (Sample.bar ⟨7⟩ 2 40)
  have herase := hnext hconsistent [Sample.bar ⟨7⟩ 1 10] [Sample.bar ⟨7⟩ 4 30] (by decide)
    (by decide) (Sample.bar ⟨7⟩ 3 20)
  exact ⟨lists_listing _ _, hascending, hconsistent, hinsert.1 rfl (by decide), herase.2 rfl⟩

end Calendar

end DailyBars
