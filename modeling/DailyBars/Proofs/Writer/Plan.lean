import DailyBars.Proofs.Calendar.Run
import DailyBars.Proofs.Result
import DailyBars.Writer
import Mathlib

/-!
# What a plan accepts

A plan is made of decisions that are independent of each other: the list as a whole is in order or
not, and each segment of it is accepted or dropped. This module says for each decision what it
means for the days that are accepted, so that no later proof opens the planning functions.

`Writer.Accepts` collects what is known of an accepted list: it is empty, or it is a whole list in
order that is consistent, or it is made of the two parts outside the stored span, **each of them
empty or else consistent and adjacent to the span** (`Writer.Touches`).
-/

namespace DailyBars.Writer

variable {calendar : Calendar} {behavior : Behavior} {asset : AssetId} {bars : List Bar}

/-! ### Sequences -/

/-- The bars are in order: all are of the asset, and their days ascend. -/
structure IsSequence (asset : AssetId) (bars : List Bar) : Prop where
  asset_eq : ∀ bar ∈ bars, bar.asset = asset
  ascending : (bars.map Bar.day).Pairwise (· < ·)

theorem IsSequence.sublist {part : List Bar} (h : IsSequence asset bars)
    (hpart : part.Sublist bars) : IsSequence asset part where
  asset_eq bar hbar := h.asset_eq bar (hpart.mem hbar)
  ascending := h.ascending.sublist (hpart.map _)

theorem neighbours_cons_cons {α : Type} (a b : α) (rest : List α) :
    neighbours (a :: b :: rest) = (a, b) :: neighbours (b :: rest) := rfl

/-- A list ascends when every day in it is before its neighbour. -/
theorem ascending_iff_neighbours {days : List Day} :
    days.Pairwise (· < ·) ↔ ∀ pair ∈ neighbours days, pair.1 < pair.2 := by
  induction days with
  | nil => simp [neighbours]
  | cons first rest ih =>
    cases rest with
    | nil => simp [neighbours]
    | cons second rest =>
      rw [neighbours_cons_cons, List.forall_mem_cons, List.pairwise_cons, ih]
      refine and_congr_left fun hrest ↦ ⟨fun h ↦ h _ List.mem_cons_self, fun h day hday ↦ ?_⟩
      rcases List.mem_cons.1 hday with rfl | hlater
      · exact h
      · exact lt_trans h ((List.pairwise_cons.1 (ih.2 hrest)).1 day hlater)

theorem mem_repeatedDays {days : List Day} {day : Day} :
    day ∈ Table.repeatedDays days ↔ (day, day) ∈ neighbours days := by
  rw [Table.repeatedDays, DayList.mem_dropRepeats, List.mem_filterMap]
  constructor
  · rintro ⟨⟨a, b⟩, hpair, hsome⟩
    by_cases heq : a = b
    · obtain rfl : a = day := by simpa [heq] using hsome
      exact heq ▸ hpair
    · simp [heq] at hsome
  · intro hpair
    exact ⟨(day, day), hpair, by simp⟩

/-- No day is repeated where no two neighbours are equal. -/
theorem repeatedDays_isEmpty_iff {days : List Day} :
    (Table.repeatedDays days).isEmpty = true ↔ ∀ pair ∈ neighbours days, pair.1 ≠ pair.2 := by
  rw [List.isEmpty_iff, List.eq_nil_iff_forall_not_mem]
  constructor
  · rintro hnone ⟨a, b⟩ hpair (rfl : a = b)
    exact hnone a (mem_repeatedDays.2 hpair)
  · intro hne day hday
    exact hne _ (mem_repeatedDays.1 hday) rfl

/-- **A list is without fault when it is in order.** -/
theorem sequenceFault?_eq_none_iff : sequenceFault? asset bars = none ↔ IsSequence asset bars := by
  have hiff : IsSequence asset bars ↔
      (∀ bar ∈ bars, bar.asset = asset) ∧ ∀ pair ∈ neighbours (bars.map Bar.day), pair.1 < pair.2 :=
    ⟨fun h ↦ ⟨h.asset_eq, ascending_iff_neighbours.1 h.ascending⟩,
      fun h ↦ ⟨h.1, ascending_iff_neighbours.2 h.2⟩⟩
  rw [hiff, sequenceFault?]
  cases hforeign : bars.find? fun bar ↦ bar.asset ≠ asset with
  | some bar =>
    have hbar := List.find?_some hforeign
    refine iff_of_false (by simp) fun ⟨hall, _⟩ ↦ ?_
    simp [hall bar (List.mem_of_find?_eq_some hforeign)] at hbar
  | none =>
    have hall : ∀ bar ∈ bars, bar.asset = asset := by simpa using hforeign
    dsimp only
    cases hdown : (neighbours (bars.map Bar.day)).find? fun pair ↦ pair.2 < pair.1 with
    | some pair =>
      have hpair := List.find?_some hdown
      refine iff_of_false (by simp) fun ⟨_, hup⟩ ↦ ?_
      have := hup pair (List.mem_of_find?_eq_some hdown)
      simp only [decide_eq_true_eq, Day.lt_iff] at hpair this
      omega
    | none =>
      have hle : ∀ pair ∈ neighbours (bars.map Bar.day), pair.1 ≤ pair.2 := by
        intro pair hpair
        have := List.find?_eq_none.1 hdown pair hpair
        rwa [decide_eq_true_eq, not_lt] at this
      dsimp only
      -- Neighbours do not descend, so they ascend exactly if no two are equal.
      split
      · rename_i hrepeat
        refine iff_of_true rfl ⟨hall, fun pair hpair ↦ ?_⟩
        exact lt_of_le_of_ne (hle pair hpair) (repeatedDays_isEmpty_iff.1 hrepeat pair hpair)
      · rename_i hrepeat
        refine iff_of_false (by simp) fun ⟨_, hup⟩ ↦ hrepeat (repeatedDays_isEmpty_iff.2 ?_)
        intro pair hpair heq
        exact lt_irrefl _ (heq ▸ hup pair hpair)

/-! ### Segments -/

/-- A report on bars is a failure exactly when it is not consistent. -/
theorem toError?_check_eq_none_iff :
    (calendar.check (bars.map Bar.day)).toError? asset bars = none ↔
      (calendar.check (bars.map Bar.day)).isConsistent = true := by
  cases bars with
  | nil => exact iff_of_true rfl rfl
  | cons bar rest =>
    unfold SessionReport.toError?
    split
    · simp_all
    · rename_i hnot
      refine iff_of_false (fun h ↦ ?_) hnot
      obtain ⟨last, hlast⟩ := Option.ne_none_iff_exists'.1
        (mt List.getLast?_eq_none_iff.1 (List.cons_ne_nil bar rest))
      rw [List.head?_cons, hlast] at h
      cases h

theorem checkSegment_eq_ok_iff {edge : Edge} {boundary storedBoundary : Day} :
    checkSegment calendar asset edge bars boundary storedBoundary = .ok () ↔
      calendar.distance boundary storedBoundary = 2 ∧
        (calendar.check (bars.map Bar.day)).isConsistent = true := by
  have hadjacent := @Calendar.checkAdjacent_eq_ok_iff calendar edge boundary storedBoundary
  have hconsistent := @toError?_check_eq_none_iff calendar asset bars
  rw [← hadjacent, ← hconsistent, checkSegment]
  cases calendar.checkAdjacent edge boundary storedBoundary with
  | error violation => simp
  | ok _ => cases (calendar.check (bars.map Bar.day)).toError? asset bars <;> simp

theorem mem_barsBefore {day : Day} {bar : Bar} (h : bar ∈ barsBefore day bars) :
    bar ∈ bars ∧ bar.day < day := by
  refine ⟨(List.takeWhile_sublist _).mem h, ?_⟩
  simpa using List.mem_takeWhile_imp h

/-- The bars that are left of an ascending list are after the day, not only the first of them. -/
theorem mem_barsAfter (hbars : (bars.map Bar.day).Pairwise (· < ·)) {day : Day} {bar : Bar}
    (h : bar ∈ barsAfter day bars) : bar ∈ bars ∧ day < bar.day := by
  induction bars with
  | nil => exact absurd h List.not_mem_nil
  | cons first rest ih =>
    obtain ⟨hfirst, hrest⟩ := List.pairwise_cons.1 hbars
    rw [barsAfter, List.dropWhile_cons] at h
    split at h
    · obtain ⟨hmem, hlt⟩ := ih hrest h
      exact ⟨List.mem_cons_of_mem _ hmem, hlt⟩
    · rename_i hnot
      have hlt : day < first.day := by simpa [not_le] using hnot
      refine ⟨h, ?_⟩
      rcases List.mem_cons.1 h with rfl | hlater
      · exact hlt
      · exact lt_trans hlt (hfirst _ (List.mem_map_of_mem hlater))

theorem barsBefore_sublist (day : Day) (bars : List Bar) : (barsBefore day bars).Sublist bars :=
  List.takeWhile_sublist _

theorem barsAfter_sublist (day : Day) (bars : List Bar) : (barsAfter day bars).Sublist bars :=
  List.dropWhile_sublist _

/-- **A list is cut at two days in order**: what is before the first, what is between them and what
is after the last are all of it. -/
theorem barsBefore_append {first last : Day} (hle : first ≤ last) (bars : List Bar) :
    barsBefore first bars ++ barsWithin first last bars ++ barsAfter last bars = bars := by
  -- The bars that are before the first day are not after the last one either.
  have hpassed : ∀ bar ∈ bars.takeWhile fun bar ↦ bar.day < first,
      decide (bar.day ≤ last) = true := by
    intro bar hbar
    have hlt := List.mem_takeWhile_imp hbar
    simp only [decide_eq_true_eq] at hlt ⊢
    exact le_trans (le_of_lt hlt) hle
  have hafter : barsAfter last bars =
      (bars.dropWhile fun bar ↦ bar.day < first).dropWhile fun bar ↦ bar.day ≤ last := by
    rw [barsAfter]
    conv_lhs => rw [← List.takeWhile_append_dropWhile (p := fun bar ↦ bar.day < first) (l := bars)]
    exact List.dropWhile_append_of_pos hpassed
  rw [hafter, List.append_assoc, barsWithin, List.takeWhile_append_dropWhile, barsBefore,
    List.takeWhile_append_dropWhile]

/-! ### Plans -/

/-- What may be stored of a segment whose bar `boundary` is next to a stored day: nothing, or all of
it where it is consistent and one session away from the stored day. -/
def Touches (calendar : Calendar) (segment : List Bar) (boundary : Option Bar)
    (storedBoundary : Day) (part : List Bar) : Prop :=
  part = [] ∨ part = segment ∧
    (∃ bar, boundary = some bar ∧ calendar.distance bar.day storedBoundary = 2) ∧
    (calendar.check (segment.map Bar.day)).isConsistent = true

/-- What may be stored of bars of an asset, given the bounds of its stored span. -/
inductive Accepts (calendar : Calendar) (asset : AssetId) (bars : List Bar) :
    Option (Day × Day) → List Bar → Prop
  | nothing {bounds} : Accepts calendar asset bars bounds []
  | initial (hbars : IsSequence asset bars)
      (hcheck : (calendar.check (bars.map Bar.day)).isConsistent = true) :
      Accepts calendar asset bars none bars
  | extension {first last : Day} {before after : List Bar} (hbars : IsSequence asset bars)
      (hbefore : Touches calendar (barsBefore first bars) (barsBefore first bars).getLast? first
        before)
      (hafter : Touches calendar (barsAfter last bars) (barsAfter last bars).head? last after) :
      Accepts calendar asset bars (some (first, last)) (before ++ after)

/-- A segment that is dropped leaves nothing to store. -/
theorem accepted_of_drop {kind : SegmentKind} {rows : Nat} {reason : StoreError} {plan : Plan}
    (h : (drop behavior kind rows reason).map (Plan.mk []) = .ok plan) : plan.accepted = [] := by
  obtain ⟨dropped, -, rfl⟩ := Result.map_eq_ok_iff.1 h
  rfl

theorem touches_of_planEdge {edge : Edge} {segment : List Bar} {boundary : Option Bar}
    {storedBoundary : Day} {plan : Plan}
    (h : planEdge calendar behavior asset edge segment boundary storedBoundary = .ok plan) :
    Touches calendar segment boundary storedBoundary plan.accepted := by
  cases boundary with
  | none =>
    cases h
    exact Or.inl rfl
  | some bar =>
    rw [planEdge] at h
    split at h
    · rename_i hcheck
      cases h
      obtain ⟨hdistance, hconsistent⟩ := checkSegment_eq_ok_iff.1 hcheck
      exact Or.inr ⟨rfl, ⟨bar, rfl, hdistance⟩, hconsistent⟩
    · exact Or.inl (accepted_of_drop h)

theorem accepts_of_planInitial {plan : Plan} (hbars : IsSequence asset bars)
    (h : planInitial calendar behavior asset bars = .ok plan) :
    Accepts calendar asset bars none plan.accepted := by
  rw [planInitial] at h
  split at h
  · rename_i hcheck
    cases h
    exact .initial hbars (toError?_check_eq_none_iff.1 hcheck)
  · rw [accepted_of_drop h]
    exact .nothing

/-- The parts outside a span whose bounds are in order do not overlap. -/
theorem planExtension_of_le {first last : Day} (hle : first ≤ last) :
    planExtension calendar behavior asset first last bars =
      planAround calendar behavior asset first last bars := by
  have hlength := congrArg List.length (barsBefore_append hle bars)
  rw [List.length_append, List.length_append] at hlength
  rw [planExtension, if_neg (by omega)]

theorem planAround_of_planExtension {first last : Day} {plan : Plan}
    (h : planExtension calendar behavior asset first last bars = .ok plan) :
    planAround calendar behavior asset first last bars = .ok plan := by
  rw [planExtension] at h
  split at h
  · cases h
  · exact h

theorem accepts_of_planExtension {first last : Day} {plan : Plan} (hbars : IsSequence asset bars)
    (h : planExtension calendar behavior asset first last bars = .ok plan) :
    Accepts calendar asset bars (some (first, last)) plan.accepted := by
  obtain ⟨overlap, -, h⟩ := Result.bind_eq_ok_iff.1 (planAround_of_planExtension h)
  obtain ⟨before, hbefore, h⟩ := Result.bind_eq_ok_iff.1 h
  obtain ⟨after, hafter, h⟩ := Result.bind_eq_ok_iff.1 h
  cases h
  exact .extension hbars (touches_of_planEdge hbefore) (touches_of_planEdge hafter)

/-- **Every plan accepts what `Accepts` allows**, whatever the disposition does with the rest. -/
theorem accepts_of_planBars {bounds : Option (Day × Day)} {plan : Plan}
    (h : planBars calendar behavior bounds asset bars = .ok plan) :
    Accepts calendar asset bars bounds plan.accepted := by
  unfold planBars at h
  split at h
  · cases h
    exact .nothing
  cases hfault : sequenceFault? asset bars with
  | some error =>
    rw [hfault] at h
    rw [accepted_of_drop h]
    exact .nothing
  | none =>
    rw [hfault] at h
    have hbars := sequenceFault?_eq_none_iff.1 hfault
    cases bounds with
    | none => exact accepts_of_planInitial hbars h
    | some bounds => exact accepts_of_planExtension hbars h

theorem Touches.sublist {segment part : List Bar} {boundary : Option Bar} {storedBoundary : Day}
    (h : Touches calendar segment boundary storedBoundary part) : part.Sublist segment := by
  rcases h with rfl | ⟨rfl, -, -⟩
  · exact List.nil_sublist _
  · exact List.Sublist.refl _

/-- **Only bars of the list are accepted.** -/
theorem Accepts.mem {bounds : Option (Day × Day)} {accepted : List Bar}
    (h : Accepts calendar asset bars bounds accepted) {bar : Bar} (hbar : bar ∈ accepted) :
    bar ∈ bars ∧ bar.asset = asset := by
  cases h with
  | nothing => exact absurd hbar List.not_mem_nil
  | initial hbars _ => exact ⟨hbar, hbars.asset_eq bar hbar⟩
  | extension hbars hbefore hafter =>
    have hmem : bar ∈ bars := by
      rcases List.mem_append.1 hbar with h | h
      · exact (hbefore.sublist.trans (barsBefore_sublist _ _)).mem h
      · exact (hafter.sublist.trans (barsAfter_sublist _ _)).mem h
    exact ⟨hmem, hbars.asset_eq bar hmem⟩

end DailyBars.Writer
