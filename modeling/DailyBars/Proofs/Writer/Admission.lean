import DailyBars.Proofs.Writer.Contiguous
import Mathlib

/-!
# What a write stores

`Writer.admitted` says which bars of a list are stored, given the days that the asset has already:
all bars or none for an asset without days, and otherwise the bars before and after the stored ones,
each part if **together with the stored day that it reaches** it is a run of sessions. The code asks
something else: it counts the sessions between two boundary days and checks the part on its own. On
a contiguous store the two are the same (`Calendar.isRun_append_iff`), wherever the part lies.

So unless the disposition raises, a write of bars that can be stored succeeds and stores what is
admitted, no less (`Writer.writeBars_eq_admitted`).
-/

namespace DailyBars

namespace Calendar

instance (calendar : Calendar) (days : List Day) : Decidable (calendar.IsRun days) :=
  decidable_of_iff
    (∀ first ∈ days.head?, ∀ last ∈ days.getLast?, days = calendar.sessionsIn first last)
    ⟨fun h first last hfirst hlast ↦ h first hfirst last hlast,
      fun h first hfirst last hlast ↦ h first last hfirst hlast⟩

end Calendar

namespace Writer

variable {calendar : Calendar} {behavior : Behavior} {asset : AssetId} {bars : List Bar}

instance (asset : AssetId) (bars : List Bar) : Decidable (IsSequence asset bars) :=
  decidable_of_iff ((∀ bar ∈ bars, bar.asset = asset) ∧ (bars.map Bar.day).Pairwise (· < ·))
    ⟨fun h ↦ ⟨h.1, h.2⟩, fun h ↦ ⟨h.asset_eq, h.ascending⟩⟩

/-- The bars that are stored of a list for an asset, given its stored days in order. -/
def admitted (calendar : Calendar) (asset : AssetId) (stored : List Day) (bars : List Bar) :
    List Bar :=
  if IsSequence asset bars then
    match stored.head?, stored.getLast? with
    | some first, some last =>
      let before := bars.filter fun bar ↦ bar.day < first
      let after := bars.filter fun bar ↦ last < bar.day
      (if calendar.IsRun (before.map Bar.day ++ [first]) then before else []) ++
        if calendar.IsRun ([last] ++ after.map Bar.day) then after else []
    | _, _ => if calendar.IsRun (bars.map Bar.day) then bars else []
  else []

/-- Only bars of the list are admitted, and only if all of them are of the asset. -/
theorem mem_of_mem_admitted {stored : List Day} {bar : Bar}
    (h : bar ∈ admitted calendar asset stored bars) : bar ∈ bars ∧ bar.asset = asset := by
  have hif : ∀ {part : List Bar} {p : Prop} [Decidable p], bar ∈ (if p then part else []) →
      p ∧ bar ∈ part := by
    intro part p _ h
    split at h
    · rename_i hp
      exact ⟨hp, h⟩
    · cases h
  rw [admitted] at h
  obtain ⟨hbars, hall⟩ := hif h
  have hmem : bar ∈ bars := by
    split at hall
    · rcases List.mem_append.1 hall with hbefore | hafter
      · exact (List.mem_filter.1 (hif hbefore).2).1
      · exact (List.mem_filter.1 (hif hafter).2).1
    · exact (hif hall).2
  exact ⟨hmem, hbars.asset_eq bar hmem⟩

/-! ### The two parts -/

theorem barsBefore_eq_filter (h : (bars.map Bar.day).Pairwise (· < ·)) (day : Day) :
    barsBefore day bars = bars.filter fun bar ↦ bar.day < day := by
  induction bars with
  | nil => rfl
  | cons first rest ih =>
    obtain ⟨hfirst, hrest⟩ := List.pairwise_cons.1 h
    rw [barsBefore, List.takeWhile_cons, List.filter_cons, ← barsBefore, ih hrest]
    split
    · rfl
    · rename_i hnot
      refine (List.filter_eq_nil_iff.2 fun bar hbar hlt ↦ hnot ?_).symm
      simp only [decide_eq_true_eq] at hlt ⊢
      exact lt_trans (hfirst bar.day (List.mem_map_of_mem hbar)) hlt

theorem barsAfter_eq_filter (h : (bars.map Bar.day).Pairwise (· < ·)) (day : Day) :
    barsAfter day bars = bars.filter fun bar ↦ day < bar.day := by
  have hall : (barsAfter day bars).filter (fun bar ↦ day < bar.day) = barsAfter day bars :=
    List.filter_eq_self.2 fun bar hbar ↦ decide_eq_true (mem_barsAfter h hbar).2
  have hnone : (bars.takeWhile fun bar ↦ bar.day ≤ day).filter (fun bar ↦ day < bar.day) = [] := by
    refine List.filter_eq_nil_iff.2 fun bar hbar ↦ ?_
    have hle := List.mem_takeWhile_imp hbar
    simp only [decide_eq_true_eq] at hle ⊢
    exact not_lt.2 hle
  conv_rhs => rw [← List.takeWhile_append_dropWhile (p := fun bar ↦ bar.day ≤ day) (l := bars),
    List.filter_append, hnone, List.nil_append, ← barsAfter, hall]

/-- A part before a stored day is accepted exactly if the two together are a run. -/
theorem checkSegment_before_iff (hcalendar : calendar.IsLawfulOn Day.IsUnsigned)
    {segment : List Bar} {bar : Bar} {first : Day} (hlast : segment.getLast? = some bar)
    (hsegment : (segment.map Bar.day).Pairwise (· < ·)) (hbefore : bar.day < first)
    (hunsigned : ∀ day ∈ segment.map Bar.day ++ [first], day.IsUnsigned)
    (hfirst : calendar.IsRun [first]) :
    checkSegment calendar asset .before segment bar.day first = .ok () ↔
      calendar.IsRun (segment.map Bar.day ++ [first]) := by
  have hgetLast : (segment.map Bar.day).getLast? = some bar.day := by
    rw [List.getLast?_map, hlast, Option.map_some]
  rw [checkSegment_eq_ok_iff, Calendar.distance_eq_of_le (le_of_lt hbefore),
    Calendar.check_isConsistent_iff hcalendar
      (fun day hday ↦ hunsigned day (List.mem_append_left _ hday)) hsegment,
    Calendar.isRun_append_iff hcalendar hunsigned hgetLast rfl hbefore]
  tauto

/-- A part after a stored day is accepted exactly if the two together are a run. -/
theorem checkSegment_after_iff (hcalendar : calendar.IsLawfulOn Day.IsUnsigned)
    {segment : List Bar} {bar : Bar} {last : Day} (hhead : segment.head? = some bar)
    (hsegment : (segment.map Bar.day).Pairwise (· < ·)) (hafter : last < bar.day)
    (hunsigned : ∀ day ∈ [last] ++ segment.map Bar.day, day.IsUnsigned)
    (hlast : calendar.IsRun [last]) :
    checkSegment calendar asset .after segment bar.day last = .ok () ↔
      calendar.IsRun ([last] ++ segment.map Bar.day) := by
  have hfirst : (segment.map Bar.day).head? = some bar.day := by
    rw [List.head?_map, hhead, Option.map_some]
  rw [checkSegment_eq_ok_iff, Calendar.distance_eq_of_lt hafter,
    Calendar.check_isConsistent_iff hcalendar
      (fun day hday ↦ hunsigned day (List.mem_append_right _ hday)) hsegment,
    Calendar.isRun_append_iff hcalendar hunsigned rfl hfirst hafter]
  tauto

/-! ### Plans that do not raise -/

theorem drop_eq_ok (hbehavior : behavior ≠ .raise) (kind : SegmentKind) (rows : Nat)
    (reason : StoreError) : drop behavior kind rows reason = .ok [⟨kind, rows, reason⟩] := by
  cases behavior with
  | raise => exact absurd rfl hbehavior
  | warn => rfl
  | ignore => rfl

/-- A segment that is refused is dropped. -/
theorem exists_drop_eq (hbehavior : behavior ≠ .raise) (kind : SegmentKind) (rows : Nat)
    (reason : StoreError) :
    ∃ dropped, (drop behavior kind rows reason).map (Plan.mk []) = .ok ⟨[], dropped⟩ :=
  ⟨_, by rw [drop_eq_ok hbehavior]; rfl⟩

theorem exists_planEdge_eq (hbehavior : behavior ≠ .raise) {edge : Edge} {segment : List Bar}
    {boundary : Option Bar} {storedBoundary : Day} {p : Prop} [Decidable p]
    (hnone : boundary = none → segment = [])
    (hiff : ∀ bar, boundary = some bar →
      (checkSegment calendar asset edge segment bar.day storedBoundary = .ok () ↔ p)) :
    ∃ dropped, planEdge calendar behavior asset edge segment boundary storedBoundary =
      .ok ⟨if p then segment else [], dropped⟩ := by
  cases boundary with
  | none =>
    rw [hnone rfl, ite_self]
    exact ⟨[], rfl⟩
  | some bar =>
    rw [planEdge]
    split
    · rename_i hcheck
      rw [if_pos ((hiff bar rfl).1 hcheck)]
      exact ⟨[], rfl⟩
    · rename_i error hcheck
      rw [if_neg fun hp ↦ by rw [(hiff bar rfl).2 hp] at hcheck; cases hcheck]
      exact exists_drop_eq hbehavior _ _ error

theorem exists_planInitial_eq (hbehavior : behavior ≠ .raise)
    (hcalendar : calendar.IsLawfulOn Day.IsUnsigned) (hbars : IsSequence asset bars)
    (hunsigned : ∀ bar ∈ bars, bar.day.IsUnsigned) :
    ∃ dropped, planInitial calendar behavior asset bars =
      .ok ⟨if calendar.IsRun (bars.map Bar.day) then bars else [], dropped⟩ := by
  have hiff := Calendar.check_isConsistent_iff hcalendar (by simpa using hunsigned) hbars.ascending
  rw [← @toError?_check_eq_none_iff calendar asset] at hiff
  rw [planInitial]
  split
  · rename_i hcheck
    rw [if_pos (hiff.1 hcheck)]
    exact ⟨[], rfl⟩
  · rename_i error hcheck
    rw [if_neg fun hrun ↦ by rw [hiff.2 hrun] at hcheck; cases hcheck]
    exact exists_drop_eq hbehavior _ _ error

theorem exists_planOverlap_eq (hbehavior : behavior ≠ .raise) (overlap : List Bar)
    (first last : Day) :
    ∃ dropped, planOverlap behavior asset overlap first last = .ok ⟨[], dropped⟩ := by
  rw [planOverlap]
  split
  · exact ⟨[], rfl⟩
  · exact exists_drop_eq hbehavior _ _ _

theorem exists_planExtension_eq (hbehavior : behavior ≠ .raise)
    (hcalendar : calendar.IsLawfulOn Day.IsUnsigned) (hbars : IsSequence asset bars)
    (hunsigned : ∀ bar ∈ bars, bar.day.IsUnsigned) {first last : Day}
    (hle : first ≤ last) (hfirst : calendar.IsRun [first]) (hlast : calendar.IsRun [last])
    (hfirstUnsigned : first.IsUnsigned) (hlastUnsigned : last.IsUnsigned) :
    let before := bars.filter fun bar ↦ bar.day < first
    let after := bars.filter fun bar ↦ last < bar.day
    ∃ dropped, planExtension calendar behavior asset first last bars =
      .ok ⟨(if calendar.IsRun (before.map Bar.day ++ [first]) then before else []) ++
        if calendar.IsRun ([last] ++ after.map Bar.day) then after else [], dropped⟩ := by
  intro before after
  rw [planExtension_of_le hle]
  have hbefore : barsBefore first bars = before := barsBefore_eq_filter hbars.ascending first
  have hafter : barsAfter last bars = after := barsAfter_eq_filter hbars.ascending last
  have hpart : ∀ {part : List Bar}, part.Sublist bars → ∀ day ∈ part.map Bar.day,
      day.IsUnsigned := by
    intro part hsub
    simpa only [List.forall_mem_map] using fun bar hbar ↦ hunsigned bar (hsub.mem hbar)
  obtain ⟨inside, hinside⟩ : ∃ dropped, planOverlap behavior asset (barsWithin first last bars)
      first last = .ok ⟨[], dropped⟩ :=
    exists_planOverlap_eq hbehavior _ first last
  obtain ⟨early, hearly⟩ : ∃ dropped, planEdge calendar behavior asset .before before
      before.getLast? first =
        .ok ⟨if calendar.IsRun (before.map Bar.day ++ [first]) then before else [], dropped⟩ :=
    exists_planEdge_eq hbehavior List.getLast?_eq_none_iff.1
      fun bar hbar ↦ checkSegment_before_iff hcalendar hbar
        (hbars.sublist List.filter_sublist).ascending
        (of_decide_eq_true (List.mem_filter.1 (List.mem_of_getLast? hbar)).2)
        (List.forall_mem_append.2
          ⟨hpart List.filter_sublist, List.forall_mem_singleton.2 hfirstUnsigned⟩) hfirst
  obtain ⟨late, hlate⟩ : ∃ dropped, planEdge calendar behavior asset .after after after.head? last =
      .ok ⟨if calendar.IsRun ([last] ++ after.map Bar.day) then after else [], dropped⟩ :=
    exists_planEdge_eq hbehavior List.head?_eq_none_iff.1
      fun bar hbar ↦ checkSegment_after_iff hcalendar hbar
        (hbars.sublist List.filter_sublist).ascending
        (of_decide_eq_true (List.mem_filter.1 (List.mem_of_head? hbar)).2)
        (List.forall_mem_append.2
          ⟨List.forall_mem_singleton.2 hlastUnsigned, hpart List.filter_sublist⟩) hlast
  refine ⟨inside ++ early ++ late, Result.bind_eq_ok_iff.2 ⟨_, hinside, ?_⟩⟩
  rw [hbefore, hafter]
  exact Result.bind_eq_ok_iff.2 ⟨_, hearly, Result.bind_eq_ok_iff.2 ⟨_, hlate, rfl⟩⟩

/-- **A plan accepts what is admitted**, where no disposition raises and the store is contiguous. -/
theorem exists_planBars_eq (hbehavior : behavior ≠ .raise) {store : Store}
    (h : store.IsContiguous calendar) (hcalendar : calendar.IsLawfulOn Day.IsUnsigned)
    (hunsigned : ∀ bar ∈ bars, bar.day.IsUnsigned) :
    ∃ dropped, planBars calendar behavior (store.assetBounds? asset) asset bars =
      .ok ⟨admitted calendar asset ((store.assetRows asset).map Bar.day) bars, dropped⟩ := by
  unfold planBars
  split
  · rename_i hempty
    rw [List.isEmpty_iff.1 hempty]
    have hnone : admitted calendar asset ((store.assetRows asset).map Bar.day) [] = [] :=
      List.eq_nil_iff_forall_not_mem.2 fun _ hbar ↦ List.not_mem_nil (mem_of_mem_admitted hbar).1
    rw [hnone]
    exact ⟨[], rfl⟩
  rw [admitted]
  cases hfault : sequenceFault? asset bars with
  | some error =>
    rw [if_neg fun hbars ↦ by rw [sequenceFault?_eq_none_iff.2 hbars] at hfault; cases hfault]
    exact exists_drop_eq hbehavior _ _ error
  | none =>
    have hbars := sequenceFault?_eq_none_iff.1 hfault
    rw [if_pos hbars]
    cases hbounds : store.assetBounds? asset with
    | none =>
      rw [Store.assetBounds?_eq_none_iff.1 hbounds]
      exact exists_planInitial_eq hbehavior hcalendar hbars hunsigned
    | some bounds =>
      obtain ⟨first, last⟩ := bounds
      obtain ⟨hfirst, hlast⟩ := Store.assetBounds?_eq_some_iff.1 hbounds
      have hends := h.unsigned_days asset
      have hrun := h.isRun asset
      rw [hfirst, hlast]
      -- Each end of the stored run is a run of its own, to which a part may be joined.
      obtain ⟨later, hlater⟩ := List.head?_eq_some_iff.1 hfirst
      obtain ⟨earlier, hearlier⟩ := List.getLast?_eq_some_iff.1 hlast
      have hle : first ≤ last :=
        Day.head_le_of_ascending (h.ascending hcalendar asset) hfirst (List.mem_of_getLast? hlast)
      refine exists_planExtension_eq hbehavior hcalendar hbars hunsigned hle ?_ ?_
        (hends first (List.mem_of_head? hfirst)) (hends last (List.mem_of_getLast? hlast))
      · rw [hlater] at hrun hends
        have hleft : calendar.IsRun ([] ++ [first] ++ later) := hrun
        exact hleft.part hcalendar hends
      · rw [hearlier, ← List.append_nil (earlier ++ [last])] at hrun hends
        exact hrun.part hcalendar hends

/-! ### Writes that do not raise -/

/-- **A write that does not raise stores what is admitted**, and says how many bars that are. -/
theorem writeBars_eq_admitted (asset : AssetId) (hbehavior : behavior ≠ .raise) {archive : Archive}
    (h : archive.store.IsContiguous calendar) (hcalendar : calendar.IsLawfulOn Day.IsUnsigned)
    (hwritable : archive.isReadOnly = false) (hunsigned : ∀ bar ∈ bars, bar.day.IsUnsigned)
    (hnumbers : ∀ bar ∈ bars, bar.hasNaN = false) :
    let added := admitted calendar asset ((archive.store.assetRows asset).map Bar.day) bars
    let written := writeBars calendar behavior asset bars archive
    (∃ dropped, written.1 = .ok (.written asset added.length dropped)) ∧
      (added = [] ∧ written.2 = archive ∨ archive.append? added = some written.2) := by
  intro added written
  obtain ⟨dropped, hplan⟩ : ∃ dropped, planBars calendar behavior
      (archive.store.assetBounds? asset) asset bars = .ok ⟨added, dropped⟩ :=
    exists_planBars_eq hbehavior h hcalendar hunsigned
  by_cases hempty : added = []
  · rw [hempty] at hplan
    have hwritten : written = (.ok (.written asset 0 dropped), archive) :=
      writeBars_of_nothing hplan
    rw [hwritten, hempty]
    exact ⟨⟨dropped, rfl⟩, Or.inl ⟨rfl, rfl⟩⟩
  · obtain ⟨next, hnext⟩ := Archive.exists_append?_eq hwritable fun bar (hbar : bar ∈ added) ↦
      hnumbers bar (mem_of_mem_admitted hbar).1
    have hwritten : written = (.ok (.written asset added.length dropped), next) :=
      writeBars_of_append? hplan hempty hnext
    rw [hwritten]
    exact ⟨⟨dropped, rfl⟩, Or.inr hnext⟩

end Writer

end DailyBars
