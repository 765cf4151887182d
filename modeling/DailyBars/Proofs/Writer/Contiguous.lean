import DailyBars.Proofs.Calendar.Run
import DailyBars.Proofs.Store.Rows
import DailyBars.Proofs.Writer.Executions
import Mathlib

/-!
# Writes keep stores contiguous

A store is contiguous when the days of each asset are a run of sessions. The empty store is, and
every write keeps it so, whatever becomes of the write: a plan that fails changes nothing, and what
a plan accepts joins the stored run at its ends (`Store.IsContiguous.append`).

A batch writes the bars of its tables one after the other, so it keeps what each single write keeps
(`Writer.writeTables_induction`). The days that matter are those of **the tables that are known and
can be read** (`Writer.barsOf?`); the others store nothing.
-/

namespace DailyBars

namespace Writer

variable {calendar : Calendar} {asset : AssetId} {segment part : List Bar} {boundary : Option Bar}
  {storedBoundary : Day}

/-! ### The parts outside a stored span -/

theorem Touches.isRun (h : Touches calendar segment boundary storedBoundary part)
    (hcalendar : calendar.IsLawfulOn Day.IsUnsigned)
    (hunsigned : ∀ bar ∈ segment, bar.day.IsUnsigned)
    (hsegment : (segment.map Bar.day).Pairwise (· < ·)) :
    calendar.IsRun (part.map Bar.day) := by
  rcases h with rfl | ⟨rfl, -, hcheck⟩
  · exact Calendar.isRun_nil calendar
  · exact (Calendar.check_isConsistent_iff hcalendar (by simpa using hunsigned) hsegment).1 hcheck

/-- The last day of a part before a stored span, and the first day of the span, are all that the
calendar counts from the one to the other. -/
theorem Touches.of_before {bars : List Bar}
    (h : Touches calendar (barsBefore storedBoundary bars)
      (barsBefore storedBoundary bars).getLast? storedBoundary part) {last : Day}
    (hlast : (part.map Bar.day).getLast? = some last) :
    last < storedBoundary ∧ (calendar.sessionsIn last storedBoundary).length = 2 := by
  rcases h with rfl | ⟨rfl, ⟨bar, hbar, hdistance⟩, -⟩
  · cases hlast
  · rw [List.getLast?_map, hbar] at hlast
    obtain rfl : bar.day = last := by simpa using hlast
    have hlt := (mem_barsBefore (List.mem_of_getLast? hbar)).2
    exact ⟨hlt, by rw [← Calendar.distance_eq_of_le (le_of_lt hlt), hdistance]⟩

theorem Touches.of_after {bars : List Bar} (hbars : (bars.map Bar.day).Pairwise (· < ·))
    (h : Touches calendar (barsAfter storedBoundary bars)
      (barsAfter storedBoundary bars).head? storedBoundary part) {first : Day}
    (hfirst : (part.map Bar.day).head? = some first) :
    storedBoundary < first ∧ (calendar.sessionsIn storedBoundary first).length = 2 := by
  rcases h with rfl | ⟨rfl, ⟨bar, hbar, hdistance⟩, -⟩
  · cases hfirst
  · rw [List.head?_map, hbar] at hfirst
    obtain rfl : bar.day = first := by simpa using hfirst
    have hlt := (mem_barsAfter hbars (List.mem_of_head? hbar)).2
    exact ⟨hlt, by rw [← Calendar.distance_eq_of_lt hlt, hdistance]⟩

end Writer

namespace Store

variable {calendar : Calendar} {store next : Store} {asset : AssetId} {bars accepted : List Bar}

/-! ### Contiguous stores -/

/-- The days of each asset are a run of sessions in the years 0 to 9999. -/
structure IsContiguous (calendar : Calendar) (store : Store) : Prop where
  unsigned : ∀ bar ∈ store.rows, bar.day.IsUnsigned
  isRun : ∀ asset, calendar.IsRun ((store.assetRows asset).map Bar.day)

theorem isContiguous_empty (calendar : Calendar) : empty.IsContiguous calendar where
  unsigned _ hbar := absurd hbar List.not_mem_nil
  isRun _ := Calendar.isRun_nil calendar

theorem unsigned_days (h : ∀ bar ∈ store.rows, bar.day.IsUnsigned) (asset : AssetId) :
    ∀ day ∈ (store.assetRows asset).map Bar.day, day.IsUnsigned :=
  List.forall_mem_map.2 fun bar hbar ↦ h bar (mem_assetRows.1 hbar).1

theorem IsContiguous.unsigned_days (h : store.IsContiguous calendar) (asset : AssetId) :
    ∀ day ∈ (store.assetRows asset).map Bar.day, day.IsUnsigned :=
  Store.unsigned_days h.unsigned asset

theorem IsContiguous.ascending (h : store.IsContiguous calendar)
    (hcalendar : calendar.IsLawfulOn Day.IsUnsigned) (asset : AssetId) :
    ((store.assetRows asset).map Bar.day).Pairwise (· < ·) :=
  (h.isRun asset).ascending hcalendar (h.unsigned_days asset)

/-- No asset has a day twice. -/
theorem IsContiguous.nodup_keys (h : store.IsContiguous calendar)
    (hcalendar : calendar.IsLawfulOn Day.IsUnsigned) : (store.rows.map Bar.key).Nodup :=
  nodup_keys_iff.2 fun asset ↦ (h.ascending hcalendar asset).nodup

/-- Only sessions are stored. -/
theorem IsContiguous.isSession (h : store.IsContiguous calendar)
    (hcalendar : calendar.IsLawfulOn Day.IsUnsigned) {bar : Bar} (hbar : bar ∈ store.rows) :
    calendar.isSession bar.day = true :=
  (h.isRun bar.asset).isSession hcalendar (h.unsigned_days bar.asset)
    (List.mem_map_of_mem (mem_assetRows.2 ⟨hbar, rfl⟩))

/-- The bounds of an asset with stored bars are the ends of its run. -/
theorem IsContiguous.exists_bounds (h : store.IsContiguous calendar)
    (hasset : store.assetRows asset ≠ []) :
    ∃ first last, store.assetBounds? asset = some (first, last) ∧
      (store.assetRows asset).map Bar.day = calendar.sessionsIn first last := by
  obtain ⟨first, last, hfirst, hlast⟩ :=
    Calendar.exists_ends (mt List.map_eq_nil_iff.1 hasset : (_ : List Day) ≠ [])
  exact ⟨first, last, assetBounds?_eq_some_iff.2 ⟨hfirst, hlast⟩,
    h.isRun asset first last hfirst hlast⟩

/-- Rows that are put around the stored ones of an asset are where they belong, if with these they
are a run. -/
theorem days_of_append? (hcalendar : calendar.IsLawfulOn Day.IsUnsigned) {before after : List Bar}
    (hasset : ∀ bar ∈ before ++ after, bar.asset = asset)
    (hunsigned : ∀ bar ∈ before ++ store.assetRows asset ++ after, bar.day.IsUnsigned)
    (hrun : calendar.IsRun ((before ++ store.assetRows asset ++ after).map Bar.day))
    (hnext : store.append? (before ++ after) = some next) :
    (next.assetRows asset).map Bar.day =
      (before ++ store.assetRows asset ++ after).map Bar.day := by
  have hall : ((before ++ after).filter fun bar ↦ bar.asset = asset) = before ++ after :=
    List.filter_eq_self.2 fun bar hbar ↦ decide_eq_true (hasset bar hbar)
  have hperm := assetRows_of_append? hnext asset
  rw [hall, List.map_append, ← List.append_assoc] at hperm
  have hdays : ((before.map Bar.stored ++ store.assetRows asset ++ after.map Bar.stored).map
      Bar.day) = (before ++ store.assetRows asset ++ after).map Bar.day := by
    simp only [List.map_append, Bar.map_day_stored]
  rw [← hdays] at hrun ⊢
  have hends : ∀ day ∈ (before.map Bar.stored ++ store.assetRows asset ++
      after.map Bar.stored).map Bar.day, day.IsUnsigned := by
    rw [hdays]
    simpa only [List.forall_mem_map] using hunsigned
  rw [assetRows_eq_of_ascending Day.orderedTexts_isUnsigned
    (hperm.trans (List.perm_append_comm.append_right _))
    (fun bar hbar ↦ hends _ (List.mem_map_of_mem hbar)) (hrun.ascending hcalendar hends)]

/-- The days of an asset after a write are a run: what was accepted joins what was stored. -/
theorem IsContiguous.isRun_append (h : store.IsContiguous calendar)
    (hcalendar : calendar.IsLawfulOn Day.IsUnsigned) (hunsigned : ∀ bar ∈ bars, bar.day.IsUnsigned)
    (haccepts : Writer.Accepts calendar asset bars (store.assetBounds? asset) accepted)
    (hnext : store.append? accepted = some next) :
    calendar.IsRun ((next.assetRows asset).map Bar.day) := by
  have hstored : ∀ bar ∈ store.assetRows asset, bar.day.IsUnsigned :=
    fun bar hbar ↦ h.unsigned bar (mem_assetRows.1 hbar).1
  have hpart := fun bar (hbar : bar ∈ accepted) ↦ haccepts.mem hbar
  -- The cases of `Accepts` speak of bounds that are known to be none or some.
  generalize hbounds : store.assetBounds? asset = bounds at haccepts
  cases haccepts with
  | nothing =>
    rw [assetRows_of_append?_of_ne hnext fun _ hbar ↦ absurd hbar List.not_mem_nil]
    exact h.isRun asset
  | initial hbars hcheck =>
    have hrun := (Calendar.check_isConsistent_iff hcalendar (by simpa using hunsigned)
      hbars.ascending).1 hcheck
    -- Where nothing is stored yet, the accepted list is put around an empty one.
    have hnone : store.assetRows asset = [] := assetBounds?_eq_none_iff.1 hbounds
    have hsame : [] ++ store.assetRows asset ++ bars = bars := by rw [hnone]; rfl
    have hdays : (next.assetRows asset).map Bar.day =
        ([] ++ store.assetRows asset ++ bars).map Bar.day :=
      days_of_append? hcalendar hbars.asset_eq (by rwa [hsame]) (by rwa [hsame]) hnext
    rw [hdays, hsame]
    exact hrun
  | @extension first last before after hbars hbefore hafter =>
    obtain ⟨hfirst, hlast⟩ := assetBounds?_eq_some_iff.1 hbounds
    have hbefore' := hbefore.sublist.trans (Writer.barsBefore_sublist first bars)
    have hafter' := hafter.sublist.trans (Writer.barsAfter_sublist last bars)
    have hrunBefore := hbefore.isRun hcalendar
      (fun bar hbar ↦ hunsigned bar ((Writer.barsBefore_sublist first bars).mem hbar))
      (hbars.sublist (Writer.barsBefore_sublist first bars)).ascending
    have hrunAfter := hafter.isRun hcalendar
      (fun bar hbar ↦ hunsigned bar ((Writer.barsAfter_sublist last bars).mem hbar))
      (hbars.sublist (Writer.barsAfter_sublist last bars)).ascending
    have hall : ∀ bar ∈ before ++ store.assetRows asset ++ after, bar.day.IsUnsigned := by
      intro bar hbar
      rcases List.mem_append.1 hbar with hbar | hbar
      · rcases List.mem_append.1 hbar with hbar | hbar
        · exact hunsigned bar (hbefore'.mem hbar)
        · exact hstored bar hbar
      · exact hunsigned bar (hafter'.mem hbar)
    have hrun : calendar.IsRun ((before ++ store.assetRows asset ++ after).map Bar.day) := by
      have hdays := List.forall_mem_map.2 hall
      simp only [List.map_append] at hdays ⊢
      exact (h.isRun asset).surround hrunBefore hrunAfter hcalendar hdays hfirst hlast
        (fun _ hb ↦ hbefore.of_before hb) fun _ hc ↦ hafter.of_after hbars.ascending hc
    rw [days_of_append? hcalendar (fun bar hbar ↦ (hpart bar hbar).2) hall hrun hnext]
    exact hrun

/-- **What a plan accepts keeps a store contiguous.** -/
theorem IsContiguous.append (h : store.IsContiguous calendar)
    (hcalendar : calendar.IsLawfulOn Day.IsUnsigned) (hunsigned : ∀ bar ∈ bars, bar.day.IsUnsigned)
    (haccepts : Writer.Accepts calendar asset bars (store.assetBounds? asset) accepted)
    (hnext : store.append? accepted = some next) : next.IsContiguous calendar where
  unsigned bar hbar := by
    rcases List.mem_append.1 ((rows_perm_of_append? hnext).mem_iff.1 hbar) with hold | hnew
    · exact h.unsigned bar hold
    · obtain ⟨added, hadded, rfl⟩ := List.mem_map.1 hnew
      exact hunsigned added (haccepts.mem hadded).1
  isRun other := by
    by_cases hother : other = asset
    · rw [hother]
      exact h.isRun_append hcalendar hunsigned haccepts hnext
    · rw [assetRows_of_append?_of_ne hnext fun bar hbar heq ↦
        hother (heq.symm.trans (haccepts.mem hbar).2)]
      exact h.isRun other

end Store

/-! ### Writes -/

namespace Writer

variable {calendar : Calendar} {behavior : Behavior} {asset : AssetId} {bars : List Bar}
  {archive : Archive}

theorem isContiguous_writeBars (h : archive.store.IsContiguous calendar)
    (hcalendar : calendar.IsLawfulOn Day.IsUnsigned)
    (hunsigned : ∀ bar ∈ bars, bar.day.IsUnsigned) :
    (writeBars calendar behavior asset bars archive).2.store.IsContiguous calendar := by
  rcases writeBars_store calendar behavior asset bars archive with hsame | hstored
  · rwa [hsame]
  · obtain ⟨accepted, store, -, haccepts, hstore, hnext⟩ := hstored
    rw [hnext]
    exact h.append hcalendar hunsigned haccepts hstore

theorem isContiguous_writeSource (h : archive.store.IsContiguous calendar)
    (hcalendar : calendar.IsLawfulOn Day.IsUnsigned) {known : Option (List AssetId)}
    {source : Source}
    (hunsigned : ∀ bars, barsOf? known source = some bars → ∀ bar ∈ bars, bar.day.IsUnsigned) :
    (writeSource calendar behavior known source archive).2.store.IsContiguous calendar :=
  writeSource_induction (motive := fun archive ↦ archive.store.IsContiguous calendar) h
    fun bars hbars ↦ isContiguous_writeBars h hcalendar (hunsigned bars hbars)

theorem isContiguous_writeTables (h : archive.store.IsContiguous calendar)
    (hcalendar : calendar.IsLawfulOn Day.IsUnsigned) {known : Option (List AssetId)}
    {sources : List Source} (hunsigned : ∀ source ∈ sources, ∀ bars,
      barsOf? known source = some bars → ∀ bar ∈ bars, bar.day.IsUnsigned) :
    (writeTables calendar behavior known sources archive).archive.store.IsContiguous calendar := by
  refine writeTables_induction (motive := fun archive ↦ archive.store.IsContiguous calendar)
    (fun source hsource bars hbars archive harchive ↦ ?_) h
  exact isContiguous_writeBars harchive hcalendar (hunsigned source hsource bars hbars)

end Writer

end DailyBars
