import DailyBars.Proofs.Writer.Repetition
import Mathlib

/-!
# Lists at one edge of a stored span

A list that lies wholly before a stored span, or wholly after it, is a single segment
(`Writer.planExtension_eq_planEdge`). If the list, the span and what is between them are a run of
sessions, then its plan is known: **the list is accepted if nothing is between, and otherwise there
is a gap**, which counts the sessions between and the two boundary days (`Writer.planBars_at_edge`).

Both edges are treated at once, in the terms of `Edge.arrange`.
-/

namespace DailyBars

namespace Edge

variable {α β : Type}

/-- A list outside a span, what is between the two, and the span, as they follow each other. -/
def arrange (edge : Edge) (outer between inner : List α) : List α :=
  match edge with
  | before => outer ++ between ++ inner
  | after => inner ++ between ++ outer

/-- The member of an outer list that is next to the span. -/
def innermost (edge : Edge) (outer : List α) : Option α :=
  match edge with
  | before => outer.getLast?
  | after => outer.head?

/-- The bound of a span at the edge. -/
def bound (edge : Edge) (first last : α) : α :=
  match edge with
  | before => first
  | after => last

theorem map_arrange (edge : Edge) (f : α → β) (outer between inner : List α) :
    (edge.arrange outer between inner).map f =
      edge.arrange (outer.map f) (between.map f) (inner.map f) := by
  cases edge <;> simp only [arrange, List.map_append]

theorem outer_sublist (edge : Edge) (outer between inner : List α) :
    outer.Sublist (edge.arrange outer between inner) := by
  cases edge with
  | before =>
    exact (List.sublist_append_left outer between).trans (List.sublist_append_left _ inner)
  | after => exact List.sublist_append_right _ outer

theorem inner_sublist (edge : Edge) (outer between inner : List α) :
    inner.Sublist (edge.arrange outer between inner) := by
  cases edge with
  | before => exact List.sublist_append_right _ inner
  | after =>
    exact (List.sublist_append_left inner between).trans (List.sublist_append_left _ outer)

theorem arrange_nil_perm (edge : Edge) (outer inner : List α) :
    (inner ++ outer).Perm (edge.arrange outer [] inner) := by
  cases edge with
  | before =>
    rw [arrange, List.append_nil]
    exact List.perm_append_comm
  | after =>
    rw [arrange, List.append_nil]

theorem exists_innermost (edge : Edge) {outer : List α} (h : outer ≠ []) :
    ∃ a, edge.innermost outer = some a := by
  cases edge with
  | before => exact ⟨_, List.getLast?_eq_some_getLast h⟩
  | after => exact ⟨_, List.head?_eq_some_head h⟩

end Edge

namespace Calendar

variable {calendar : Calendar} {ends : Day → Prop} {edge : Edge} {outer between inner : List Day}
  {first last : Day}

/-- The outer days of a run are beyond the bound of the inner ones. -/
theorem IsRun.beyond (hrun : calendar.IsRun (edge.arrange outer between inner))
    (h : calendar.IsLawfulOn ends) (hends : ∀ day ∈ edge.arrange outer between inner, ends day)
    (hfirst : inner.head? = some first) (hlast : inner.getLast? = some last) :
    ∀ day ∈ outer, edge.beyond (edge.bound first last) day = true := by
  intro day hday
  have hascending := hrun.ascending h hends
  cases edge with
  | before =>
    have hcross := (List.pairwise_append.1 hascending).2.2
    exact decide_eq_true (hcross day (List.mem_append_left _ hday) first (List.mem_of_head? hfirst))
  | after =>
    have hcross := (List.pairwise_append.1 hascending).2.2
    exact decide_eq_true
      (hcross last (List.mem_append_left _ (List.mem_of_getLast? hlast)) day hday)

/-- **The distance of an outer list counts what is between, and the two boundary days.** -/
theorem IsRun.distance_eq (hrun : calendar.IsRun (edge.arrange outer between inner))
    (h : calendar.IsLawfulOn ends) (hends : ∀ day ∈ edge.arrange outer between inner, ends day)
    (hfirst : inner.head? = some first) (hlast : inner.getLast? = some last) {day : Day}
    (hday : edge.innermost outer = some day) :
    calendar.distance day (edge.bound first last) = between.length + 2 := by
  -- From one boundary day to the other there is a part of the run.
  have hpart : ∀ {xs zs : List Day} {b c : Day},
      calendar.IsRun (xs ++ ([b] ++ between ++ [c]) ++ zs) →
      (∀ day ∈ xs ++ ([b] ++ between ++ [c]) ++ zs, ends day) →
      b < c ∧ (calendar.sessionsIn b c).length = between.length + 2 := by
    intro xs zs b c hall hallEnds
    have hself := hall.part h hallEnds
    have hascending := hself.ascending h fun day hmem ↦
      hallEnds day (List.mem_append_left _ (List.mem_append_right _ hmem))
    refine ⟨(List.pairwise_append.1 hascending).2.2 b (by simp) c (by simp), ?_⟩
    rw [← hself b c rfl List.getLast?_concat]
    simp
  cases edge with
  | before =>
    obtain ⟨earlier, rfl⟩ := List.getLast?_eq_some_iff.1 hday
    obtain ⟨later, rfl⟩ := List.head?_eq_some_iff.1 hfirst
    have hsplit : Edge.before.arrange (earlier ++ [day]) between (first :: later) =
        earlier ++ ([day] ++ between ++ [first]) ++ later := by simp [Edge.arrange]
    rw [hsplit] at hrun hends
    obtain ⟨hlt, hcount⟩ := hpart hrun hends
    exact (distance_eq_of_le (le_of_lt hlt)).trans hcount
  | after =>
    obtain ⟨later, rfl⟩ := List.head?_eq_some_iff.1 hday
    obtain ⟨earlier, rfl⟩ := List.getLast?_eq_some_iff.1 hlast
    have hsplit : Edge.after.arrange (day :: later) between (earlier ++ [last]) =
        earlier ++ ([last] ++ between ++ [day]) ++ later := by simp [Edge.arrange]
    rw [hsplit] at hrun hends
    obtain ⟨hlt, hcount⟩ := hpart hrun hends
    exact (distance_eq_of_lt hlt).trans hcount

/-- The outer days of a run are a run. -/
theorem IsRun.of_arrange (hrun : calendar.IsRun (edge.arrange outer between inner))
    (h : calendar.IsLawfulOn ends) (hends : ∀ day ∈ edge.arrange outer between inner, ends day) :
    calendar.IsRun outer := by
  cases edge with
  | before =>
    have hleft : Edge.before.arrange outer between inner = [] ++ outer ++ (between ++ inner) := by
      rw [Edge.arrange, List.nil_append, List.append_assoc]
    rw [hleft] at hrun hends
    exact hrun.part h hends
  | after =>
    rw [Edge.arrange, ← List.append_nil (inner ++ between ++ outer)] at hrun hends
    exact hrun.part h hends

end Calendar

namespace Writer

variable {calendar : Calendar} {behavior : Behavior} {asset : AssetId} {bars : List Bar}
  {edge : Edge} {first last : Day}

/-- **A list that is beyond one bound is one segment.** -/
theorem planExtension_eq_planEdge (hle : first ≤ last)
    (hbeyond : ∀ bar ∈ bars, edge.beyond (edge.bound first last) bar.day = true) :
    planExtension calendar behavior asset first last bars =
      planEdge calendar behavior asset edge bars (edge.innermost bars) (edge.bound first last) := by
  have hall := barsBefore_append hle bars
  rw [planExtension_of_le hle, planAround]
  cases edge with
  | before =>
    have hbefore : barsBefore first bars = bars := List.takeWhile_eq_self_iff.2 hbeyond
    rw [hbefore, List.append_assoc, List.append_right_eq_self, List.append_eq_nil_iff] at hall
    rw [hbefore, hall.1, hall.2]
    show (planEdge calendar behavior asset .before bars bars.getLast? first >>= fun plan ↦
      pure (Plan.mk (plan.accepted ++ []) ([] ++ plan.dropped ++ []))) = _
    simp only [List.nil_append, List.append_nil]
    exact bind_pure _
  | after =>
    have hafter : barsAfter last bars = bars := by
      refine List.dropWhile_eq_self_iff.2 fun hl ↦ ?_
      have hlt : last < bars[0].day := of_decide_eq_true (hbeyond _ (List.getElem_mem hl))
      simpa [not_le] using hlt
    rw [hafter, List.append_left_eq_self, List.append_eq_nil_iff] at hall
    rw [hall.1, hall.2, hafter]
    show (planEdge calendar behavior asset .after bars bars.head? last >>= fun plan ↦
      pure (Plan.mk ([] ++ plan.accepted) ([] ++ [] ++ plan.dropped))) = _
    simp only [List.nil_append]
    exact bind_pure _

/-- A list that is a run is accepted where nothing is stored. -/
theorem planBars_initial {ends : Day → Prop} (hcalendar : calendar.IsLawfulOn ends)
    (hasset : ∀ bar ∈ bars, bar.asset = asset) (hends : ∀ day ∈ bars.map Bar.day, ends day)
    (hrun : calendar.IsRun (bars.map Bar.day)) :
    planBars calendar behavior none asset bars = .ok ⟨bars, []⟩ := by
  have hascending := hrun.ascending hcalendar hends
  have hcheck := (Calendar.check_isConsistent_iff hcalendar hends hascending).2 hrun
  rw [planBars]
  split
  · rename_i hempty
    rw [List.isEmpty_iff.1 hempty]
  · rw [sequenceFault?_eq_none_iff.2 ⟨hasset, hascending⟩]
    show planInitial calendar behavior asset bars = _
    rw [planInitial, toError?_check_eq_none_iff.2 hcheck]

/-- **The plan for a list outside of a span**, where these and what is between them are a run: it is
accepted if nothing is between. -/
theorem planBars_at_edge {ends : Day → Prop} (hcalendar : calendar.IsLawfulOn ends)
    {outer : List Bar} {between inner : List Day} (houter : outer ≠ [])
    (hasset : ∀ bar ∈ outer, bar.asset = asset)
    (hends : ∀ day ∈ edge.arrange (outer.map Bar.day) between inner, ends day)
    (hrun : calendar.IsRun (edge.arrange (outer.map Bar.day) between inner))
    (hfirst : inner.head? = some first) (hlast : inner.getLast? = some last) :
    planBars calendar behavior (some (first, last)) asset outer =
      if between = [] then .ok ⟨outer, []⟩
      else (drop behavior (.ofEdge edge) outer.length (.edgeViolation asset
        (.gap edge (between.length + 2) Calendar.requiredDistance))).map (Plan.mk []) := by
  have houterEnds : ∀ day ∈ outer.map Bar.day, ends day := fun day hday ↦
    hends day ((edge.outer_sublist _ between inner).mem hday)
  have houterRun := hrun.of_arrange hcalendar hends
  have hascending := houterRun.ascending hcalendar houterEnds
  have hbeyond := List.forall_mem_map.1 (hrun.beyond hcalendar hends hfirst hlast)
  have hinner := (hrun.ascending hcalendar hends).sublist (edge.inner_sublist _ between inner)
  have hle : first ≤ last :=
    Day.head_le_of_ascending hinner hfirst (List.mem_of_getLast? hlast)
  obtain ⟨bar, hbar⟩ := edge.exists_innermost houter
  have hday : edge.innermost (outer.map Bar.day) = some bar.day := by
    cases edge with
    | before => exact List.getLast?_map.trans (congrArg (Option.map Bar.day) hbar)
    | after => exact List.head?_map.trans (congrArg (Option.map Bar.day) hbar)
  have hdistance := hrun.distance_eq hcalendar hends hfirst hlast hday
  rw [planBars, if_neg (by simpa using houter), sequenceFault?_eq_none_iff.2 ⟨hasset, hascending⟩]
  show planExtension calendar behavior asset first last outer = _
  rw [planExtension_eq_planEdge hle hbeyond, hbar, planEdge]
  by_cases hbetween : between = []
  · have hcheck := (Calendar.check_isConsistent_iff hcalendar houterEnds hascending).2 houterRun
    rw [hbetween] at hdistance
    rw [if_pos hbetween, checkSegment_eq_ok_iff.2 ⟨hdistance, hcheck⟩]
  · have hgap : between.length + 2 ≠ Calendar.requiredDistance := fun heq ↦
      hbetween (List.eq_nil_of_length_eq_zero (Nat.add_right_cancel heq))
    rw [if_neg hbetween, checkSegment, Calendar.checkAdjacent, hdistance, if_neg hgap]

end Writer

end DailyBars
