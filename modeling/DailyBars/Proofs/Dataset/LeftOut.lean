import DailyBars.Proofs.Dataset.OtherCalendar
import DailyBars.Proofs.Writer.Edges
import Mathlib

/-!
# Sessions left out between a span and its extension

A segment is next to a stored span if two sessions are counted from its boundary day to that of the
span, these days included. **The count presumes that both are sessions.** Those of the segment are,
by the consistency check. That of the span was one when it was stored; the holidays or the file of
sessions may have been changed since. Where it is none any more, the count of two is made up by a
session in between: **exactly one is left out** by every extension that is accepted
(`Writer.checkSegment_eq_ok_iff_leftOut`), and an extension that leaves out none is refused.
-/

namespace DailyBars

/-! ### Counting between two days -/

namespace Calendar

variable {calendar : Calendar} {ends : Day → Prop} {a b day : Day}

/-- The sessions strictly between two days. -/
def between (calendar : Calendar) (a b : Day) : List Day :=
  (calendar.sessionsIn a b).filter fun day ↦ a < day && day < b

theorem mem_between (h : calendar.IsLawfulOn ends) (ha : ends a) (hb : ends b) :
    day ∈ calendar.between a b ↔ a < day ∧ day < b ∧ calendar.isSession day = true := by
  rw [between, List.mem_filter, h.mem_iff ha hb, Bool.and_eq_true, decide_eq_true_eq,
    decide_eq_true_eq]
  simp only [Day.le_iff, Day.lt_iff]
  constructor
  · rintro ⟨⟨-, -, hsession⟩, hlow, hhigh⟩
    exact ⟨hlow, hhigh, hsession⟩
  · rintro ⟨hlow, hhigh, hsession⟩
    exact ⟨⟨by omega, by omega, hsession⟩, hlow, hhigh⟩

/-- A closed range is its ends, as far as they are sessions, and what is between. -/
theorem sessionsIn_eq_append (h : calendar.IsLawfulOn ends) (ha : ends a) (hb : ends b)
    (hab : a < b) : calendar.sessionsIn a b =
      [a].filter calendar.isSession ++ calendar.between a b ++ [b].filter calendar.isSession := by
  have hbetween : (calendar.between a b).Pairwise (· < ·) := (h.ascending ha hb).filter _
  have hend : ∀ {day end' : Day}, day ∈ [end'].filter calendar.isSession ↔
      day = end' ∧ calendar.isSession day = true := by
    intro day end'
    rw [List.mem_filter, List.mem_singleton]
  refine List.Pairwise.eq_of_mem_iff (h.ascending ha hb) ?_ fun day ↦ ?_
  · refine List.pairwise_append.2 ⟨List.pairwise_append.2 ⟨List.Pairwise.filter _
      (List.pairwise_singleton _ _), hbetween, ?_⟩, List.Pairwise.filter _
      (List.pairwise_singleton _ _), ?_⟩
    · intro first hfirst day hday
      obtain ⟨rfl, -⟩ := hend.1 hfirst
      exact ((mem_between h ha hb).1 hday).1
    · intro day hday last hlast
      obtain ⟨rfl, -⟩ := hend.1 hlast
      rcases List.mem_append.1 hday with hfirst | hday
      · obtain ⟨rfl, -⟩ := hend.1 hfirst
        exact hab
      · exact ((mem_between h ha hb).1 hday).2.1
  · rw [h.mem_iff ha hb, List.mem_append, List.mem_append, hend, hend, mem_between h ha hb]
    constructor
    · rintro ⟨hlow, hhigh, hsession⟩
      by_cases hfirst : day = a
      · exact Or.inl (Or.inl ⟨hfirst, hsession⟩)
      by_cases hlast : day = b
      · exact Or.inr ⟨hlast, hsession⟩
      exact Or.inl (Or.inr ⟨lt_of_le_of_ne hlow (Ne.symm hfirst),
        lt_of_le_of_ne hhigh hlast, hsession⟩)
    · rintro ((⟨rfl, hsession⟩ | ⟨hlow, hhigh, hsession⟩) | ⟨rfl, hsession⟩)
      · exact ⟨le_refl _, le_of_lt hab, hsession⟩
      · exact ⟨le_of_lt hlow, le_of_lt hhigh, hsession⟩
      · exact ⟨le_of_lt hab, le_refl _, hsession⟩

/-- **A closed range counts what is between its ends, and those of its ends that are sessions.** -/
theorem length_sessionsIn (h : calendar.IsLawfulOn ends) (ha : ends a) (hb : ends b)
    (hab : a < b) : (calendar.sessionsIn a b).length = (calendar.isSession a).toNat +
      (calendar.between a b).length + (calendar.isSession b).toNat := by
  have hend : ∀ day, ([day].filter calendar.isSession).length = (calendar.isSession day).toNat := by
    intro day
    rw [List.filter_singleton]
    cases calendar.isSession day <;> rfl
  rw [sessionsIn_eq_append h ha hb hab, List.length_append, List.length_append, hend, hend]

/-- The sessions between a stored boundary day and that of a segment at an edge. -/
def leftOut (calendar : Calendar) (edge : Edge) (boundary stored : Day) : List Day :=
  match edge with
  | .before => calendar.between boundary stored
  | .after => calendar.between stored boundary

variable {edge : Edge} {boundary stored : Day}

theorem mem_leftOut (h : calendar.IsLawfulOn ends) (hboundary : ends boundary)
    (hstored : ends stored) : day ∈ calendar.leftOut edge boundary stored ↔
      edge.beyond stored day = true ∧ edge.beyond day boundary = true ∧
        calendar.isSession day = true := by
  cases edge with
  | before =>
    simp only [leftOut, Edge.beyond, decide_eq_true_eq, mem_between h hboundary hstored]
    exact and_left_comm
  | after =>
    simp only [leftOut, Edge.beyond, decide_eq_true_eq, mem_between h hstored hboundary]

/-- The distance counts what is left out, and those of the two days that are sessions. -/
theorem distance_eq_leftOut (h : calendar.IsLawfulOn ends) (hboundary : ends boundary)
    (hstored : ends stored) (hbeyond : edge.beyond stored boundary = true) :
    calendar.distance boundary stored = (calendar.isSession stored).toNat +
      (calendar.leftOut edge boundary stored).length + (calendar.isSession boundary).toNat := by
  cases edge with
  | before =>
    have hlt : boundary < stored := of_decide_eq_true hbeyond
    rw [distance_eq_of_le (le_of_lt hlt), length_sessionsIn h hboundary hstored hlt, leftOut]
    omega
  | after =>
    have hlt : stored < boundary := of_decide_eq_true hbeyond
    rw [distance_eq_of_lt hlt, length_sessionsIn h hstored hboundary hlt, leftOut]

end Calendar

/-! ### Accepted extensions -/

theorem Edge.mem_of_innermost {α : Type} {edge : Edge} {outer : List α} {a : α}
    (h : edge.innermost outer = some a) : a ∈ outer := by
  cases edge with
  | before => exact List.mem_of_getLast? h
  | after => exact List.mem_of_head? h

namespace Writer

variable {calendar : Calendar} {asset : AssetId} {edge : Edge} {segment : List Bar}
  {boundary : Bar} {stored : Day}

/-- **An extension is accepted exactly if it is a run and leaves out as many sessions as the stored
boundary day falls short of being one**: none beyond a session, and one beyond another day. -/
theorem checkSegment_eq_ok_iff_leftOut (hcalendar : calendar.IsLawful)
    (hascending : (segment.map Bar.day).Pairwise (· < ·))
    (hbeyond : ∀ bar ∈ segment, edge.beyond stored bar.day = true)
    (hboundary : edge.innermost segment = some boundary) :
    (checkSegment calendar asset edge segment boundary.day stored = .ok () ↔
      calendar.IsRun (segment.map Bar.day) ∧
        (calendar.leftOut edge boundary.day stored).length =
          if calendar.isSession stored then 0 else 1) ∧
    ∀ day, day ∈ calendar.leftOut edge boundary.day stored ↔
      edge.beyond stored day = true ∧ edge.beyond day boundary.day = true ∧
        calendar.isSession day = true := by
  have hlawful := hcalendar.isLawfulOn fun _ ↦ True
  have hmem := Edge.mem_of_innermost hboundary
  refine ⟨?_, fun day ↦ Calendar.mem_leftOut hlawful trivial trivial⟩
  rw [checkSegment_eq_ok_iff,
    Calendar.check_isConsistent_iff hlawful (fun _ _ ↦ trivial) hascending, and_comm]
  refine and_congr_right fun hrun ↦ ?_
  have hsession : calendar.isSession boundary.day = true :=
    hrun.isSession hlawful (fun _ _ ↦ trivial) (List.mem_map_of_mem hmem)
  rw [Calendar.distance_eq_leftOut hlawful trivial trivial (hbeyond boundary hmem), hsession]
  cases calendar.isSession stored <;> simp

end Writer

namespace Sample

/-- Thursday to Tuesday, without the weekend. -/
def withFriday : Calendar :=
  .ofSessions "XNYS" (DayList.ofList [day 3, day 4, day 7, day 8])

/-- The same days, but Friday is a holiday. -/
def withoutFriday : Calendar :=
  .ofSessions "XNYS" (DayList.ofList [day 3, day 7, day 8])

/-- The span ends on Friday. -/
def untilFriday : List Call :=
  [.write .raise ⟨7⟩ [bar ⟨7⟩ 3 10, bar ⟨7⟩ 4 20]]

end Sample

namespace Writer

theorem length_leftOut_after_friday :
    let segment := [Sample.bar ⟨7⟩ 8 30]
    (∀ bar ∈ segment, Edge.after.beyond (Sample.day 4) bar.day = true) ∧
      checkSegment Sample.withoutFriday ⟨7⟩ .after segment (Sample.day 8) (Sample.day 4) = .ok () ∧
      (Sample.withoutFriday.leftOut .after (Sample.day 8) (Sample.day 4)).length = 1 := by
  intro segment
  have hbeyond : ∀ bar ∈ segment, Edge.after.beyond (Sample.day 4) bar.day = true := by decide
  have haccepted : checkSegment Sample.withoutFriday ⟨7⟩ .after segment (Sample.day 8)
      (Sample.day 4) = .ok () := by cbv
  obtain ⟨hiff, -⟩ := checkSegment_eq_ok_iff_leftOut (Calendar.isLawful_ofSessions _ _)
    (List.pairwise_singleton _ _) hbeyond rfl
  obtain ⟨-, hlength⟩ := hiff.1 haccepted
  have hfriday : Sample.withoutFriday.isSession (Sample.day 4) = false := by cbv
  exact ⟨hbeyond, haccepted, hlength.trans (if_neg (Bool.eq_false_iff.1 hfriday))⟩

/-- **A session may be left out**: Monday lies between the stored Friday, which is a holiday by
now, and the Tuesday that extends the span, and the write succeeds. -/
theorem exists_session_left_out :
    let store := (run Sample.withFriday Sample.untilFriday .empty).store
    let extension := [Sample.bar ⟨7⟩ 8 30]
    Sample.withFriday.IsLawful ∧ Sample.withoutFriday.IsLawful ∧
      store.assetBounds? ⟨7⟩ = some (Sample.day 3, Sample.day 4) ∧
      checkSegment Sample.withoutFriday ⟨7⟩ .after extension (Sample.day 8) (Sample.day 4) =
        .ok () ∧
      (∃ day, Sample.day 4 < day ∧ day < Sample.day 8 ∧ Sample.withoutFriday.isSession day = true) ∧
      ((run Sample.withoutFriday [.write .raise ⟨7⟩ extension]
        (run Sample.withFriday Sample.untilFriday .empty)).store.assetRows ⟨7⟩).map Bar.day =
          [Sample.day 3, Sample.day 4, Sample.day 8] := by
  refine ⟨Calendar.isLawful_ofSessions _ _, Calendar.isLawful_ofSessions _ _, by cbv, by cbv,
    ⟨Sample.day 7, by decide, by decide, by cbv⟩, by cbv⟩

end Writer

end DailyBars
